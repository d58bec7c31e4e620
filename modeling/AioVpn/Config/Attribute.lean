import AioVpn.Crypto.Key

/-!
# Configuration lines: attributes, value lists and errors

`com.wireguard.config.Attribute` reads one line `Key = value` and splits a value
at its commas; `ParseException` and `BadConfigException` are how the parsers fail.

The line pattern is `(\w+)\s*=\s*([^\s#][^#]*)`, matched against the whole line.
None of its parts can take a character of the next one, so the match is the
left-to-right scan of `Attribute.parse`.  The list pattern is `\s*,\s*`; Java's
`split` drops the trailing empty pieces, so a lone comma is an empty list.
-/

namespace AioVpn

/-- Java's `LinkedHashSet`: the elements in insertion order, without repetition. -/
structure LinkedHashSet (α : Type) where
  /-- The elements in insertion order. -/
  elems : List α
  nodup : elems.Nodup
  deriving DecidableEq

namespace LinkedHashSet

variable {α : Type}

/-- The empty set. -/
def empty : LinkedHashSet α := ⟨[], List.nodup_nil⟩

instance : Membership α (LinkedHashSet α) := ⟨fun s a => a ∈ s.elems⟩

@[ext] theorem ext {s t : LinkedHashSet α} (h : s.elems = t.elems) : s = t := by
  obtain ⟨l, hl⟩ := s
  obtain rfl : l = t.elems := h
  rfl

theorem mem_def {s : LinkedHashSet α} {a : α} : a ∈ s ↔ a ∈ s.elems := Iff.rfl

@[simp] theorem notMem_empty (a : α) : a ∉ (empty : LinkedHashSet α) := List.not_mem_nil

variable [DecidableEq α]

instance (s : LinkedHashSet α) (a : α) : Decidable (a ∈ s) :=
  inferInstanceAs (Decidable (a ∈ s.elems))

/-- `Set.add`. -/
def add (s : LinkedHashSet α) (a : α) : LinkedHashSet α :=
  if h : a ∈ s.elems then s
  else ⟨s.elems ++ [a], by
    rw [List.nodup_append]
    exact ⟨s.nodup, List.nodup_singleton a, fun x hx y hy hxy => by
      rw [List.mem_singleton] at hy
      exact h (hy ▸ hxy ▸ hx)⟩⟩

/-- `Set.addAll`. -/
def addAll (s : LinkedHashSet α) (as : List α) : LinkedHashSet α := as.foldl add s

/-- `Set.remove`. -/
def remove (s : LinkedHashSet α) (a : α) : LinkedHashSet α :=
  ⟨s.elems.filter fun b => b ≠ a, s.nodup.filter _⟩

/-- `Set.isEmpty`. -/
def isEmpty (s : LinkedHashSet α) : Bool := s.elems.isEmpty

@[simp] theorem mem_add {s : LinkedHashSet α} {a b : α} : b ∈ s.add a ↔ b ∈ s ∨ b = a := by
  unfold add
  split
  · rename_i h
    constructor
    · exact Or.inl
    · rintro (hb | rfl)
      · exact hb
      · exact h
  · rw [mem_def, mem_def, List.mem_append, List.mem_singleton]

@[simp] theorem mem_addAll {s : LinkedHashSet α} {as : List α} {b : α} :
    b ∈ s.addAll as ↔ b ∈ s ∨ b ∈ as := by
  induction as generalizing s with
  | nil => simp [addAll]
  | cons a as ih =>
    have hstep : s.addAll (a :: as) = (s.add a).addAll as := rfl
    rw [hstep, ih, mem_add, List.mem_cons, or_assoc]

theorem elems_addAll {s : LinkedHashSet α} {as : List α} (h : (s.elems ++ as).Nodup) :
    (s.addAll as).elems = s.elems ++ as := by
  induction as generalizing s with
  | nil => simp [addAll]
  | cons a as ih =>
    have hnew : a ∉ s.elems := fun hmem =>
      List.disjoint_of_nodup_append h hmem List.mem_cons_self
    have hadd : (s.add a).elems = s.elems ++ [a] := by rw [add, dif_neg hnew]
    have hstep : s.addAll (a :: as) = (s.add a).addAll as := rfl
    have hassoc : s.elems ++ a :: as = (s.add a).elems ++ as := by rw [hadd]; simp
    rw [hassoc] at h ⊢
    rw [hstep, ih h]

/-- A set is made of its elements. -/
theorem empty_addAll_elems (s : LinkedHashSet α) : empty.addAll s.elems = s := by
  ext1
  exact elems_addAll s.nodup

theorem mem_remove {s : LinkedHashSet α} {a b : α} : b ∈ s.remove a ↔ b ∈ s ∧ b ≠ a := by
  rw [mem_def, mem_def, remove, List.mem_filter, decide_eq_true_eq]

omit [DecidableEq α] in
theorem isEmpty_iff {s : LinkedHashSet α} : s.isEmpty = true ↔ ∀ a, a ∉ s := by
  rw [isEmpty, List.isEmpty_iff, List.eq_nil_iff_forall_not_mem]
  rfl

omit [DecidableEq α] in
theorem elems_eq_nil {s : LinkedHashSet α} (h : s.isEmpty = true) : s.elems = [] :=
  List.isEmpty_iff.mp h

omit [DecidableEq α] in
theorem elems_ne_nil {s : LinkedHashSet α} (h : s.isEmpty = false) : s.elems ≠ [] := by
  rw [← List.isEmpty_eq_false_iff]
  exact h

omit [DecidableEq α] in
theorem eq_empty {s : LinkedHashSet α} (h : s.isEmpty = true) : s = empty := by
  ext1
  exact elems_eq_nil h

end LinkedHashSet

/-! ## Errors -/

/-- The class a `ParseException` was parsing for. -/
inductive ParsingClass where
  | integer
  | inetAddress
  | inetNetwork
  | inetEndpoint
  deriving DecidableEq

/-- `ParseException`. -/
structure ParseException where
  parsingClass : ParsingClass
  /-- The text that could not be parsed. -/
  text : JString
  deriving DecidableEq

/-- `BadConfigException.Section`. -/
inductive BadSection where
  | config
  | interface
  | peer
  deriving DecidableEq

/-- `BadConfigException.Location`. -/
inductive Location where
  | topLevel
  | address
  | allowedIps
  | dns
  | endpoint
  | excludedApplications
  | includedApplications
  | listenPort
  | mtu
  | persistentKeepalive
  | preSharedKey
  | privateKey
  | publicKey
  deriving DecidableEq

/-- `BadConfigException.Reason`. -/
inductive BadReason where
  | invalidKey
  | invalidNumber
  | invalidValue
  | missingAttribute
  | missingSection
  | syntaxError
  | unknownAttribute
  | unknownSection
  deriving DecidableEq

/-- `BadConfigException`. -/
structure BadConfigException where
  badSection : BadSection
  location : Location
  reason : BadReason
  text : Option JString
  deriving DecidableEq

namespace BadConfigException

/-- The exception that wraps a `ParseException`. -/
def ofParse (section_ : BadSection) (location : Location) (e : ParseException) :
    BadConfigException :=
  ⟨section_, location, .invalidValue, some e.text⟩

/-- The exception that wraps a `KeyFormatException`. -/
def ofKey (section_ : BadSection) (location : Location) : BadConfigException :=
  ⟨section_, location, .invalidKey, none⟩

/-- The exception that wraps a `NumberFormatException`. -/
def ofNumber (section_ : BadSection) (location : Location) (text : JString) : BadConfigException :=
  ⟨section_, location, .invalidNumber, some text⟩

end BadConfigException

/-! ## Attributes -/

/-- `Attribute`. -/
structure Attribute where
  /-- The key, as written. -/
  key : JString
  value : JString
  deriving DecidableEq

namespace Attribute

/-- `Attribute.parse`; `none` when the line does not match. -/
def parse (line : JString) : Option Attribute :=
  let key := line.takeWhile JChar.isWord
  match (line.dropWhile JChar.isWord).dropWhile JChar.isSpace with
  | c :: rest =>
      let value := rest.dropWhile JChar.isSpace
      if key ≠ [] ∧ c = ch '=' ∧ value ≠ [] ∧ ch '#' ∉ value then some ⟨key, value⟩ else none
  | [] => none

/-- Cut white space off the front of every piece but the first and off the back of
every piece but the last: the separator takes it. -/
def stripPieces : List JString → List JString
  | [] => []
  | [piece] => [piece.dropWhile JChar.isSpace]
  | piece :: pieces =>
      (piece.dropWhile JChar.isSpace).rdropWhile JChar.isSpace :: stripPieces pieces

/-- `Attribute.split`. -/
def split (value : JString) : List JString :=
  match value.splitOn (ch ',') with
  | piece :: next :: pieces =>
      (piece.rdropWhile JChar.isSpace :: stripPieces (next :: pieces)).rdropWhile List.isEmpty
  | _ => [value]

end Attribute
end AioVpn
