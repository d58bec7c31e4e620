import AioVpn.Config.AttributeText
import AioVpn.Repo.RemovedLines

/-!
# The line the rewriter inserts

For package names, the line that is inserted is one line of text, the parser sees all of
it (`parse_applicationsText`), and it reads exactly the chosen packages in it
(`inserted_applicationsText`).
-/

namespace AioVpn

/-- A package name: letters, digits, `_` and `.`, and not empty.  Letters and digits may be
of any script: outside ASCII every character is allowed. -/
def IsPackageName (name : JString) : Prop :=
  name ≠ [] ∧ ∀ c ∈ name, c.isWord = true ∨ c = ch '.' ∨ 0x80 ≤ c.toNat

theorem IsPackageName.bounds {name : JString} (h : IsPackageName name) {c : JChar}
    (hc : c ∈ name) : 0x2e ≤ c.toNat := by
  rcases h.2 c hc with hword | rfl | hscript
  · have := JChar.bounds_of_isWord hword
    omega
  · decide
  · omega

theorem IsPackageName.plain {name : JString} (h : IsPackageName name) {c : JChar} (hc : c ∈ name) :
    c.isSpace = false ∧ c ≠ ch ',' := by
  have hbounds := h.bounds hc
  refine ⟨(JChar.visible_of_lt (by omega)).1, ?_⟩
  rintro rfl
  revert hbounds
  decide

/-! ## Attributes and lists of names -/

namespace Attribute

/-- **Splitting undoes joining**, for names without commas and white space. -/
theorem split_joinToString {names : List JString} (hne : names ≠ [])
    (hnames : ∀ name ∈ names, name ≠ [] ∧ ∀ c ∈ name, c.isSpace = false ∧ c ≠ ch ',') :
    split (JString.joinToString (jstr ",") names) = names := by
  rw [split_joinToString_eq hne fun name hname hc => ((hnames name hname).2 _ hc).2 rfl]
  have hfront : ∀ name ∈ names, name.dropWhile JChar.isSpace = name := fun name hname =>
    JString.dropWhile_eq_self fun c hc => ((hnames name hname).2 c (List.mem_of_mem_head? hc)).1
  have hback : ∀ name ∈ names, name.rdropWhile JChar.isSpace = name := fun name hname =>
    JString.rdropWhile_eq_self fun c hc => ((hnames name hname).2 c (List.mem_of_getLast? hc)).1
  cases names with
  | nil => exact absurd rfl hne
  | cons name rest =>
    cases rest with
    | nil => rfl
    | cons next rest =>
      have hrest : List.Forall₂ (fun raw piece => raw.dropWhile JChar.isSpace = piece ∧
          piece.rdropWhile JChar.isSpace = piece) (next :: rest) (next :: rest) :=
        List.forall₂_same.mpr fun n hn =>
          ⟨hfront n (List.mem_cons_of_mem _ hn), hback n (List.mem_cons_of_mem _ hn)⟩
      rw [strip, hback name List.mem_cons_self, stripPieces_eq hrest, List.rdropWhile_eq_self_iff]
      intro hlist
      have hlast := (hnames _ (List.getLast_mem hlist)).1
      simpa using hlast

end Attribute

namespace VpnRepository

open Config

/-! ## The chosen packages -/

/-- The packages chosen in a mode. -/
def chosen (mode : SplitTunnelMode) (excluded included : LinkedHashSet JString) :
    LinkedHashSet JString :=
  match mode with
  | .off => .empty
  | .excludeApps => excluded
  | .includeOnlyApps => included

/-- The attribute that names them. -/
def attributeKey : SplitTunnelMode → JString
  | .includeOnlyApps => jstr "IncludedApplications"
  | _ => jstr "ExcludedApplications"

theorem applicationsLine_eq (mode : SplitTunnelMode) (hmode : mode ≠ .off)
    (excluded included : LinkedHashSet JString) :
    applicationsLine mode excluded included =
      if (chosen mode excluded included).isEmpty then none
      else some (attributeKey mode ++ jstr " = " ++
        JString.joinToString (jstr ",") (sorted (chosen mode excluded included))) := by
  cases mode with
  | off => exact absurd rfl hmode
  | excludeApps => rfl
  | includeOnlyApps => rfl

/-! ## The line -/

section Line

variable {mode : SplitTunnelMode} {excluded included : LinkedHashSet JString}
  (hnames : ∀ name ∈ chosen mode excluded included, IsPackageName name)
  (hne : (chosen mode excluded included).isEmpty = false)

theorem mem_sorted {names : LinkedHashSet JString} {name : JString} :
    name ∈ sorted names ↔ name ∈ names :=
  (List.perm_insertionSort _ names.elems).mem_iff

/-- The value of the attribute. -/
abbrev applicationsValue (mode : SplitTunnelMode) (excluded included : LinkedHashSet JString) :
    JString :=
  JString.joinToString (jstr ",") (sorted (chosen mode excluded included))

/-- The line. -/
abbrev applicationsText (mode : SplitTunnelMode) (excluded included : LinkedHashSet JString) :
    JString :=
  attributeKey mode ++ jstr " = " ++ applicationsValue mode excluded included

theorem bounds_of_mem_joinToString {names : List JString}
    (hall : ∀ name ∈ names, IsPackageName name) :
    ∀ c ∈ JString.joinToString (jstr ",") names, 0x2c ≤ c.toNat := by
  intro c hc
  rcases JString.mem_joinToString hc with hc | ⟨name, hname, hc⟩
  · obtain rfl : c = ch ',' := List.mem_singleton.mp hc
    decide
  · have hbounds := (hall name hname).bounds hc
    omega

include hnames hne

theorem split_applicationsValue :
    Attribute.split (applicationsValue mode excluded included) =
      sorted (chosen mode excluded included) := by
  refine Attribute.split_joinToString ?_ ?_
  · intro hnil
    have hempty : (chosen mode excluded included).isEmpty = true := by
      refine LinkedHashSet.isEmpty_iff.mpr fun name hname => ?_
      rw [← mem_sorted, hnil] at hname
      exact absurd hname (by simp)
    exact absurd hempty (by simp [hne])
  · intro name hname
    have hpackage := hnames name (mem_sorted.mp hname)
    exact ⟨hpackage.1, fun c hc => hpackage.plain hc⟩

theorem applicationsValue_ne_nil : applicationsValue mode excluded included ≠ [] := by
  intro hnil
  have hsplit := split_applicationsValue hnames hne
  rw [hnil] at hsplit
  have hmem : [] ∈ sorted (chosen mode excluded included) := by
    rw [← hsplit]
    exact List.mem_cons_self
  exact (hnames [] (mem_sorted.mp hmem)).1 rfl

omit hne in
/-- The characters of the value. -/
theorem bounds_of_mem_applicationsValue {c : JChar}
    (hc : c ∈ applicationsValue mode excluded included) : 0x2c ≤ c.toNat :=
  bounds_of_mem_joinToString (fun name hname => hnames name (mem_sorted.mp hname)) c hc

omit hnames hne in
theorem isKey_attributeKey (mode : SplitTunnelMode) : Attribute.IsKey (attributeKey mode) := by
  cases mode <;> exact ⟨by decide, List.all_eq_true.mp (by decide)⟩

theorem isValue_applicationsValue :
    Attribute.IsValue (applicationsValue mode excluded included) := by
  have hvisible : ∀ c ∈ applicationsValue mode excluded included,
      c.isSpace = false ∧ c.isTrimmed = false ∧ c.isLineEnd = false := by
    intro c hc
    have hbounds := bounds_of_mem_applicationsValue hnames hc
    exact JChar.visible_of_lt (by omega)
  have hlast := List.getLast?_eq_some_getLast (applicationsValue_ne_nil hnames hne)
  refine ⟨fun c hc => (hvisible c (List.mem_of_mem_head? hc)).1,
    ⟨_, hlast, (hvisible _ (List.mem_of_getLast? hlast)).2.1⟩, fun hc => ?_,
    fun c hc => (hvisible c hc).2.2⟩
  have hbounds := bounds_of_mem_applicationsValue hnames hc
  revert hbounds
  decide

/-- **The parser sees all of the line**: it is an attribute with the chosen packages. -/
theorem parse_applicationsText :
    Attribute.parse (cleanLine (applicationsText mode excluded included)) =
      some ⟨attributeKey mode, applicationsValue mode excluded included⟩ :=
  (isValue_applicationsValue hnames hne).parse_cleanLine (isKey_attributeKey mode)

end Line

/-- The line that is inserted, as the parser sees it. -/
structure Inserted (mode : SplitTunnelMode) (excluded included : LinkedHashSet JString)
    (line : JString) : Prop where
  oneLine : JString.OneLine line
  notHeader : isHeader line = false
  applications : isApplications (cleanLine line) = true
  excluded : ∀ name, name ∈ namesIn .excludedApplications (cleanLine line) ↔
    mode = .excludeApps ∧ name ∈ excluded
  included : ∀ name, name ∈ namesIn .includedApplications (cleanLine line) ↔
    mode = .includeOnlyApps ∧ name ∈ included

/-- **The line that is inserted** names the chosen packages and nothing else. -/
theorem inserted_applicationsText {mode : SplitTunnelMode} (hmode : mode ≠ .off)
    {excluded included : LinkedHashSet JString}
    (hnames : ∀ name ∈ chosen mode excluded included, IsPackageName name)
    (hne : (chosen mode excluded included).isEmpty = false) :
    Inserted mode excluded included (applicationsText mode excluded included) := by
  have hvalue := isValue_applicationsValue hnames hne
  have hkey := isKey_attributeKey mode
  have hparse := parse_applicationsText hnames hne
  have hsplit := split_applicationsValue hnames hne
  refine ⟨Attribute.oneLine_key_value hkey hvalue.oneLine,
    Attribute.isHeader_key_value hkey hvalue.noComment, ?_, ?_, ?_⟩
  · rw [isApplications, hparse, decide_eq_true_eq]
    dsimp only
    cases mode with
    | off => exact absurd rfl hmode
    | excludeApps => exact Or.inl (by decide)
    | includeOnlyApps => exact Or.inr (by decide)
  · intro name
    rw [namesIn, hparse]
    dsimp only
    rw [hsplit]
    cases mode with
    | off => exact absurd rfl hmode
    | excludeApps =>
      rw [if_pos (by decide), mem_sorted]
      simp [chosen]
    | includeOnlyApps =>
      rw [if_neg (by decide)]
      simp
  · intro name
    rw [namesIn, hparse]
    dsimp only
    rw [hsplit]
    cases mode with
    | off => exact absurd rfl hmode
    | excludeApps =>
      rw [if_neg (by decide)]
      simp
    | includeOnlyApps =>
      rw [if_pos (by decide), mem_sorted]
      simp [chosen]

end VpnRepository
end AioVpn
