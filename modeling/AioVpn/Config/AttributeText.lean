import AioVpn.Config.Reading

/-!
# Attributes as text

What the parser makes of a line `key = value` that was printed, and of a value that was
joined from several.

The parser cuts a comment off the line and trims it, so what it reads is the value up to
its last visible character (`trimmed`, `parse_cleanLine`).  A value without a comment sign that
begins and ends with a visible character is read back as it is (`IsValue`).

A list is joined with `, ` and cut at its commas.  Its pieces are read back, except that
trimming the line trims the last one, and that empty pieces at the end are dropped
(`split_trimmed_join`).
-/

namespace AioVpn

open JString

namespace JChar

theorem isTrimmed_of_isSpace {c : JChar} (h : c.isSpace = true) : c.isTrimmed = true := by
  simp only [isSpace, Bool.or_eq_true, Bool.and_eq_true, decide_eq_true_eq] at h
  rw [isTrimmed, decide_eq_true_eq]
  omega

theorem isSpace_of_not_isTrimmed {c : JChar} (h : c.isTrimmed = false) : c.isSpace = false := by
  by_contra hspace
  exact absurd (isTrimmed_of_isSpace (Bool.not_eq_false _ ▸ hspace)) (by simp [h])

end JChar

namespace Attribute

/-- A key: word characters. -/
def IsKey (key : JString) : Prop := key ≠ [] ∧ ∀ c ∈ key, c.isWord = true

instance (key : JString) : Decidable (IsKey key) :=
  decidable_of_iff (key ≠ [] ∧ key.all JChar.isWord = true) (by rw [List.all_eq_true, IsKey])

/-- What the parser sees of a value at the end of a line. -/
def trimmed (value : JString) : JString :=
  ((ch ' ' :: value).rdropWhile JChar.isTrimmed).dropWhile JChar.isSpace

/-- A value that is read back as it is. -/
structure IsValue (value : JString) : Prop where
  head : ∀ c ∈ value.head?, c.isSpace = false
  last : ∃ c ∈ value.getLast?, c.isTrimmed = false
  noComment : ch '#' ∉ value
  oneLine : OneLine value

/-! ## Lines -/

section Lines

variable {key value : JString}

theorem key_value_eq (key value : JString) :
    key ++ jstr " = " ++ value = (key ++ [ch ' ']) ++ ch '=' :: ch ' ' :: value := by
  rw [List.append_assoc, List.append_assoc]
  rfl

theorem head_key_value (hkey : IsKey key) : ∀ c ∈ (key ++ jstr " = " ++ value).head?,
    c.isWord = true := by
  obtain ⟨hne, hword⟩ := hkey
  cases key with
  | nil => exact absurd rfl hne
  | cons k key =>
    intro c hc
    obtain rfl : k = c := Option.some.inj hc
    exact hword _ List.mem_cons_self

/-- **The parser sees the line up to its last visible character.** -/
theorem cleanLine_key_value (hkey : IsKey key) (hcomment : ch '#' ∉ value) :
    Config.cleanLine (key ++ jstr " = " ++ value) =
      (key ++ [ch ' ']) ++ ch '=' :: (ch ' ' :: value).rdropWhile JChar.isTrimmed := by
  have htake : (key ++ jstr " = " ++ value).takeWhile (· ≠ ch '#') =
      key ++ jstr " = " ++ value := by
    rw [List.takeWhile_eq_self_iff]
    intro c hc
    rw [decide_eq_true_eq]
    rintro rfl
    rcases List.mem_append.mp hc with hc | hc
    · rcases List.mem_append.mp hc with hc | hc
      · exact absurd (hkey.2 _ hc) (by decide)
      · exact absurd hc (by decide)
    · exact hcomment hc
  have hfront : (key ++ jstr " = " ++ value).dropWhile JChar.isTrimmed =
      key ++ jstr " = " ++ value := by
    refine dropWhile_eq_self fun c hc => ?_
    have hbounds := JChar.bounds_of_isWord (head_key_value hkey c hc)
    exact (JChar.visible_of_lt (by omega)).2.1
  rw [Config.cleanLine, htake, javaTrim, trimBy, hfront, key_value_eq,
    rdropWhile_append_cons _ (by decide)]

/-- It is no header. -/
theorem isHeader_key_value (hkey : IsKey key) (hcomment : ch '#' ∉ value) :
    Config.isHeader (key ++ jstr " = " ++ value) = false := by
  rw [Config.isHeader, cleanLine_key_value hkey hcomment, decide_eq_false_iff_not]
  intro h
  obtain ⟨hne, hword⟩ := hkey
  cases key with
  | nil => exact absurd rfl hne
  | cons k key =>
    obtain rfl : k = ch '[' := Option.some.inj h
    exact absurd (hword _ List.mem_cons_self) (by decide)

theorem oneLine_key_value (hkey : IsKey key) (hvalue : OneLine value) :
    OneLine (key ++ jstr " = " ++ value) := by
  intro c hc
  rcases List.mem_append.mp hc with hc | hc
  · rcases List.mem_append.mp hc with hc | hc
    · have hbounds := JChar.bounds_of_isWord (hkey.2 c hc)
      exact (JChar.visible_of_lt (by omega)).2.2
    · have hsign : ∀ c ∈ jstr " = ", c.isLineEnd = false :=
        List.forall_mem_iff_forall_getElem.mpr (by decide)
      exact hsign c hc
  · exact hvalue c hc

/-- **What the parser reads in a line** `key = value`. -/
theorem parse_cleanLine (hkey : IsKey key) (hcomment : ch '#' ∉ value) :
    parse (Config.cleanLine (key ++ jstr " = " ++ value)) =
      if trimmed value = [] then none else some ⟨key, trimmed value⟩ := by
  have hline : ∀ rest : JString,
      ((key ++ [ch ' ']) ++ ch '=' :: rest).takeWhile JChar.isWord = key ∧
      (((key ++ [ch ' ']) ++ ch '=' :: rest).dropWhile JChar.isWord).dropWhile JChar.isSpace =
        ch '=' :: rest := by
    intro rest
    rw [List.append_assoc, List.singleton_append, List.takeWhile_append_of_pos hkey.2,
      List.takeWhile_cons_of_neg (by decide), List.append_nil,
      List.dropWhile_append_of_pos hkey.2, List.dropWhile_cons_of_neg (by decide),
      List.dropWhile_cons_of_pos (by decide), List.dropWhile_cons_of_neg (by decide)]
    exact ⟨rfl, rfl⟩
  have hnone : ch '#' ∉ trimmed value := by
    intro h
    have h' := (List.rdropWhile_prefix _ _).subset ((List.dropWhile_suffix _).subset h)
    rcases List.mem_cons.mp h' with h' | h'
    · exact absurd h' (by decide)
    · exact hcomment h'
  rw [cleanLine_key_value hkey hcomment, parse, (hline _).1, (hline _).2]
  dsimp only
  rw [← trimmed]
  by_cases hempty : trimmed value = []
  · rw [if_pos hempty, if_neg (by simp [hempty])]
  · rw [if_neg hempty, if_pos ⟨hkey.1, rfl, hempty, hnone⟩]

/-- A value that begins and ends with a visible character is not trimmed. -/
theorem trimmed_eq_self (hhead : ∀ c ∈ value.head?, c.isSpace = false)
    (hlast : ∃ c ∈ value.getLast?, c.isTrimmed = false) : trimmed value = value := by
  obtain ⟨c, hc, hvisible⟩ := hlast
  have hne : value ≠ [] := by
    rintro rfl
    exact absurd hc (by simp)
  have hback : (ch ' ' :: value).rdropWhile JChar.isTrimmed = ch ' ' :: value := by
    refine rdropWhile_eq_self fun d hd => ?_
    rw [List.getLast?_cons_of_ne_nil hne] at hd
    rw [← Option.some.inj (hc.symm.trans hd), hvisible]
  rw [trimmed, hback, List.dropWhile_cons_of_pos (by decide), dropWhile_eq_self hhead]

/-- What the parser sees ends with a visible character. -/
theorem last_trimmed : ∀ c ∈ (trimmed value).getLast?, c.isTrimmed = false := fun c hc =>
  last_rdropWhile _ c (getLast?_of_suffix (List.dropWhile_suffix _) hc)

end Lines

namespace IsValue

variable {key value : JString}

theorem ne_nil (h : IsValue value) : value ≠ [] := by
  rintro rfl
  obtain ⟨c, hc, -⟩ := h.last
  exact absurd hc (by simp)

theorem trimmed_eq (h : IsValue value) : trimmed value = value := trimmed_eq_self h.head h.last

theorem parse_cleanLine (h : IsValue value) (hkey : IsKey key) :
    parse (Config.cleanLine (key ++ jstr " = " ++ value)) = some ⟨key, value⟩ := by
  rw [Attribute.parse_cleanLine hkey h.noComment, h.trimmed_eq, if_neg h.ne_nil]

end IsValue

/-! ## Lists -/

/-- A piece of a list: no comma, no comment sign, one line, and no white space at its ends. -/
structure IsPiece (piece : JString) : Prop where
  plain : ∀ c ∈ piece, c ≠ ch ',' ∧ c ≠ ch '#' ∧ c.isLineEnd = false
  head : ∀ c ∈ piece.head?, c.isSpace = false
  last : ∀ c ∈ piece.getLast?, c.isSpace = false

/-- What the separators leave of the pieces. -/
def strip : List JString → List JString
  | piece :: next :: pieces =>
      (piece.rdropWhile JChar.isSpace :: stripPieces (next :: pieces)).rdropWhile List.isEmpty
  | pieces => pieces

/-- A value is cut at its commas. -/
theorem split_joinToString_eq {pieces : List JString} (hne : pieces ≠ [])
    (hcomma : ∀ piece ∈ pieces, ch ',' ∉ piece) :
    split (joinToString (jstr ",") pieces) = strip pieces := by
  have hcut : (joinToString (jstr ",") pieces).splitOn (ch ',') = pieces :=
    List.splitOn_intercalate (ch ',') hcomma hne
  rw [split, hcut]
  cases pieces with
  | nil => exact absurd rfl hne
  | cons piece rest =>
    cases rest with
    | nil => simp [joinToString, strip]
    | cons next pieces => rfl

/-- White space in front of the pieces is cut off. -/
theorem stripPieces_eq {raws pieces : List JString}
    (h : List.Forall₂ (fun raw piece => raw.dropWhile JChar.isSpace = piece ∧
      piece.rdropWhile JChar.isSpace = piece) raws pieces) : stripPieces raws = pieces := by
  induction h with
  | nil => rfl
  | @cons raw piece raws pieces hpiece hrest ih =>
    obtain ⟨hfront, hback⟩ := hpiece
    cases hrest with
    | nil => rw [stripPieces, hfront]
    | cons _ _ =>
      show ((raw.dropWhile JChar.isSpace).rdropWhile JChar.isSpace) :: stripPieces _ = _
      rw [hfront, hback, ih]

/-- `Attribute.join`. -/
def join (values : List JString) : JString := joinToString (jstr ", ") values

/-- The blank belongs to the piece behind it. -/
theorem join_cons (piece : JString) (pieces : List JString) :
    join (piece :: pieces) =
      joinToString (jstr ",") (piece :: pieces.map fun p => ch ' ' :: p) := by
  induction pieces generalizing piece with
  | nil => rw [join, joinToString_singleton, List.map_nil, joinToString_singleton]
  | cons next pieces ih =>
    have hpad : ∀ (q : JString) (qs : List JString),
        joinToString (jstr ",") ((ch ' ' :: q) :: qs) =
          ch ' ' :: joinToString (jstr ",") (q :: qs) := by
      intro q qs
      cases qs with
      | nil => rw [joinToString_singleton, joinToString_singleton]
      | cons q' qs => rw [joinToString_cons_cons, joinToString_cons_cons]; rfl
    rw [join, joinToString_cons_cons, ← join, ih, List.map_cons, joinToString_cons_cons, hpad,
      List.append_assoc, List.append_assoc]
    rfl

/-- A joined list does not begin with white space. -/
theorem head_join {names : List JString} (hnames : ∀ name ∈ names, IsPiece name) :
    ∀ c ∈ (join names).head?, c.isSpace = false := by
  intro c hc
  cases names with
  | nil => exact absurd hc (by simp [join, joinToString])
  | cons name names =>
    cases name with
    | nil =>
      cases names with
      | nil => exact absurd hc (by simp [join, joinToString])
      | cons next names =>
        rw [join, joinToString_cons_cons] at hc
        obtain rfl : ch ',' = c := Option.some.inj hc
        decide
    | cons d name =>
      have hd : (join ((d :: name) :: names)).head? = some d := by
        cases names with
        | nil => rw [join, joinToString_singleton]; rfl
        | cons next names => rw [join, joinToString_cons_cons]; rfl
      obtain rfl := Option.some.inj (hd.symm.trans hc)
      exact (hnames _ List.mem_cons_self).head d rfl

/-- The pieces behind the first comma, as they stand in the text, and as they are read. -/
theorem forall₂_pieces {names : List JString} (hnames : ∀ name ∈ names, IsPiece name)
    (a : JString) :
    List.Forall₂ (fun raw piece => raw.dropWhile JChar.isSpace = piece ∧
        piece.rdropWhile JChar.isSpace = piece)
      ((names.map fun p => ch ' ' :: p) ++ [(ch ' ' :: a).rdropWhile JChar.isTrimmed])
      (names ++ [trimmed a]) := by
  induction names with
  | nil =>
    refine .cons ⟨rfl, rdropWhile_eq_self fun c hc => ?_⟩ .nil
    exact JChar.isSpace_of_not_isTrimmed (last_trimmed c hc)
  | cons name names ih =>
    have hname := hnames name List.mem_cons_self
    refine .cons ⟨?_, rdropWhile_eq_self hname.last⟩ (ih fun n hn =>
      hnames n (List.mem_cons_of_mem _ hn))
    rw [List.dropWhile_cons_of_pos (by decide), dropWhile_eq_self hname.head]

/-- What the parser sees of a joined list: only the last piece is trimmed. -/
theorem trimmed_join_concat {name : JString} {names : List JString}
    (hnames : ∀ n ∈ name :: names, IsPiece n) (a : JString) :
    trimmed (join (name :: names ++ [a])) = joinToString (jstr ",")
      (name :: ((names.map fun p => ch ' ' :: p) ++
        [(ch ' ' :: a).rdropWhile JChar.isTrimmed])) := by
  have hjoin : join (name :: names ++ [a]) = join (name :: names) ++ ch ',' :: ch ' ' :: a := by
    rw [join, joinToString_concat, List.append_assoc]
    rfl
  have hhead : ∀ c ∈ (join (name :: names) ++
      ch ',' :: (ch ' ' :: a).rdropWhile JChar.isTrimmed).head?, c.isSpace = false := by
    intro c hc
    cases hnil : join (name :: names) with
    | nil =>
      rw [hnil] at hc
      obtain rfl : ch ',' = c := Option.some.inj hc
      decide
    | cons d rest =>
      rw [hnil] at hc
      obtain rfl : d = c := Option.some.inj hc
      exact head_join hnames d (by rw [hnil]; rfl)
  have hback := rdropWhile_append_cons (p := JChar.isTrimmed) (ch ' ' :: join (name :: names))
    (c := ch ',') (by decide) (ch ' ' :: a)
  rw [trimmed, hjoin]
  show ((ch ' ' :: join (name :: names) ++ ch ',' :: ch ' ' :: a).rdropWhile _).dropWhile _ = _
  rw [hback, List.cons_append, List.dropWhile_cons_of_pos (by decide), dropWhile_eq_self hhead,
    join_cons, ← List.cons_append, joinToString_concat, List.append_assoc]
  rfl

theorem strip_cons (name : JString) {pieces : List JString} (hne : pieces ≠ []) :
    strip (name :: pieces) =
      (name.rdropWhile JChar.isSpace :: stripPieces pieces).rdropWhile List.isEmpty := by
  cases pieces with
  | nil => exact absurd rfl hne
  | cons next pieces => rfl

/-- **A joined list is read back**, except that its last piece is trimmed and that empty
pieces at the end are dropped. -/
theorem split_trimmed_join {names : List JString} (hnames : ∀ name ∈ names, IsPiece name)
    {a : JString} (ha : IsPiece a) (hne : trimmed (join (names ++ [a])) ≠ []) :
    split (trimmed (join (names ++ [a]))) =
      (names ++ [trimmed a]).rdropWhile List.isEmpty := by
  have hcomma : ch ',' ∉ (ch ' ' :: a).rdropWhile JChar.isTrimmed := by
    intro h
    rcases List.mem_cons.mp ((List.rdropWhile_prefix _ _).subset h) with h | h
    · exact absurd h (by decide)
    · exact (ha.plain _ h).1 rfl
  cases names with
  | nil =>
    have hjoin : join ([] ++ [a]) = a := joinToString_singleton ..
    rw [hjoin] at hne ⊢
    have hone : split (joinToString (jstr ",") [trimmed a]) = strip [trimmed a] := by
      refine split_joinToString_eq (by simp) fun piece hpiece h => ?_
      obtain rfl := List.mem_singleton.mp hpiece
      exact hcomma ((List.dropWhile_suffix _).subset h)
    rw [joinToString_singleton] at hone
    rw [hone, List.nil_append, List.rdropWhile_singleton, if_neg (by simpa using hne)]
    rfl
  | cons name names =>
    have hrest := fun n hn => hnames n (List.mem_cons_of_mem _ hn)
    rw [trimmed_join_concat hnames, split_joinToString_eq (by simp)]
    · rw [strip_cons name (by simp), stripPieces_eq (forall₂_pieces hrest a),
        rdropWhile_eq_self (hnames name List.mem_cons_self).last]
      rfl
    · intro piece hpiece
      rcases List.mem_cons.mp hpiece with rfl | hpiece
      · exact fun h => ((hnames _ List.mem_cons_self).plain _ h).1 rfl
      rcases List.mem_append.mp hpiece with hpiece | hpiece
      · obtain ⟨n, hn, rfl⟩ := List.mem_map.mp hpiece
        intro h
        rcases List.mem_cons.mp h with h | h
        · exact absurd h (by decide)
        · exact ((hrest n hn).plain _ h).1 rfl
      · obtain rfl := List.mem_singleton.mp hpiece
        exact hcomma

/-- The last name ends with a visible character. -/
def EndsVisibly (names : List JString) : Prop :=
  ∀ a ∈ names.getLast?, ∃ c ∈ a.getLast?, c.isTrimmed = false

instance (names : List JString) : Decidable (EndsVisibly names) :=
  inferInstanceAs (Decidable (∀ a ∈ names.getLast?, ∃ c ∈ a.getLast?, c.isTrimmed = false))

/-- The names of a list that the parser loses when the last one does not end visibly. -/
theorem not_mem_split_trimmed_join {names : List JString} (hnames : ∀ name ∈ names, IsPiece name)
    {a : JString} (ha : IsPiece a) (hmem : a ∉ names)
    (hlast : ¬ ∃ c ∈ a.getLast?, c.isTrimmed = false)
    (hne : trimmed (join (names ++ [a])) ≠ []) :
    a ∉ split (trimmed (join (names ++ [a]))) := by
  rw [split_trimmed_join hnames ha hne]
  intro h
  have hback : ∀ l : List JString,
      (l ++ [[]]).rdropWhile List.isEmpty = l.rdropWhile List.isEmpty :=
    fun l => List.rdropWhile_concat_pos _ _ _ rfl
  by_cases hempty : trimmed a = []
  · rw [hempty, hback] at h
    exact hmem ((List.rdropWhile_prefix _ _).subset h)
  · rcases List.mem_append.mp ((List.rdropWhile_prefix _ _).subset h) with h | h
    · exact hmem h
    · -- what is read ends with a visible character
      rcases List.eq_nil_or_concat (trimmed a) with hnil | ⟨front, c, hfront⟩
      · exact hempty hnil
      · have hc : c ∈ (trimmed a).getLast? := by rw [hfront]; simp
        refine hlast ⟨c, ?_, last_trimmed c hc⟩
        rw [List.mem_singleton.mp h]
        exact hc

section Join

variable {names : List JString} (hne : names ≠ []) (hnames : ∀ name ∈ names, IsPiece name)
  (hends : EndsVisibly names)

include hnames

/-- The characters of a joined list. -/
theorem plain_join : ∀ c ∈ join names, c ≠ ch '#' ∧ c.isLineEnd = false := by
  intro c hc
  rcases mem_joinToString hc with hc | ⟨name, hname, hc⟩
  · have hsep : ∀ c ∈ jstr ", ", c ≠ ch '#' ∧ c.isLineEnd = false :=
      List.forall_mem_iff_forall_getElem.mpr (by decide)
    exact hsep c hc
  · exact ((hnames name hname).plain c hc).2

include hne hends

/-- **A joined list is a value** if its last name ends visibly. -/
theorem isValue_join : IsValue (join names) := by
  have hchars := plain_join hnames
  refine ⟨head_join hnames, ?_, fun h => (hchars _ h).1 rfl, fun c hc => (hchars c hc).2⟩
  have hlast := List.getLast?_eq_some_getLast hne
  obtain ⟨c, hc, hvisible⟩ := hends _ hlast
  exact ⟨c, getLast?_of_suffix (suffix_joinToString hlast) hc, hvisible⟩

/-- **Splitting undoes joining.** -/
theorem split_join : split (join names) = names := by
  have hvalue := isValue_join hne hnames hends
  obtain rfl | ⟨front, a, rfl⟩ := List.eq_nil_or_concat names
  · exact absurd rfl hne
  · rw [List.concat_eq_append] at hvalue hnames hends ⊢
    have ha : IsPiece a := hnames a (by simp)
    obtain ⟨c, hc, hvisible⟩ := hends a (by simp)
    have htrim : trimmed a = a := trimmed_eq_self ha.head ⟨c, hc, hvisible⟩
    have hnil : a ≠ [] := by
      rintro rfl
      exact absurd hc (by simp)
    have h := split_trimmed_join (fun n hn => hnames n (List.mem_append_left _ hn)) ha
      (by rw [hvalue.trimmed_eq]; exact hvalue.ne_nil)
    rw [hvalue.trimmed_eq, htrim] at h
    rw [h, List.rdropWhile_concat_neg _ _ _ (by simpa using hnil)]

end Join

/-! ## The pieces of a value -/

/-- The pieces between the commas are made of the other characters of the value. -/
theorem mem_splitOn {x : JChar} {value raw : JString} (hraw : raw ∈ value.splitOn x) {c : JChar}
    (hc : c ∈ raw) : c ∈ value ∧ c ≠ x := by
  induction value generalizing raw with
  | nil =>
    obtain rfl : raw = [] := by simpa using hraw
    exact absurd hc (by simp)
  | cons d value ih =>
    rw [List.splitOn_cons_eq_if_modifyHead] at hraw
    split at hraw
    · rcases List.mem_cons.mp hraw with rfl | hraw
      · exact absurd hc (by simp)
      · exact ⟨List.mem_cons_of_mem _ (ih hraw hc).1, (ih hraw hc).2⟩
    · rename_i hd
      cases hcut : value.splitOn x with
      | nil => exact absurd hcut (List.splitOn_ne_nil _ _)
      | cons first rest =>
        rw [hcut, List.modifyHead_cons] at hraw
        rw [hcut] at ih
        rcases List.mem_cons.mp hraw with rfl | hraw
        · rcases List.mem_cons.mp hc with rfl | hc
          · exact ⟨List.mem_cons_self, by simpa using hd⟩
          · have h := ih List.mem_cons_self hc
            exact ⟨List.mem_cons_of_mem _ h.1, h.2⟩
        · have h := ih (List.mem_cons_of_mem _ hraw) hc
          exact ⟨List.mem_cons_of_mem _ h.1, h.2⟩

/-- The pieces behind the first comma. -/
theorem mem_stripPieces {raws : List JString}
    (hlast : ∀ raw ∈ raws.getLast?, ∀ c ∈ raw.getLast?, c.isSpace = false) {piece : JString}
    (hpiece : piece ∈ stripPieces raws) :
    (∃ raw ∈ raws, ∀ c ∈ piece, c ∈ raw) ∧ (∀ c ∈ piece.head?, c.isSpace = false) ∧
      ∀ c ∈ piece.getLast?, c.isSpace = false := by
  have hfront : ∀ (raw : JString), ∀ c ∈ (raw.dropWhile JChar.isSpace).head?,
      c.isSpace = false := by
    intro raw c hc
    have h := List.head?_dropWhile_not JChar.isSpace raw
    rw [hc] at h
    simpa using h
  induction raws with
  | nil => exact absurd hpiece (by simp [stripPieces])
  | cons raw raws ih =>
    cases raws with
    | nil =>
      rw [stripPieces, List.mem_singleton] at hpiece
      subst hpiece
      refine ⟨⟨raw, List.mem_cons_self, fun c hc => (List.dropWhile_suffix _).subset hc⟩,
        hfront raw, fun c hc => ?_⟩
      exact hlast raw rfl c (getLast?_of_suffix (List.dropWhile_suffix _) hc)
    | cons next raws =>
      have hcons : stripPieces (raw :: next :: raws) =
          (raw.dropWhile JChar.isSpace).rdropWhile JChar.isSpace ::
            stripPieces (next :: raws) := rfl
      rw [hcons, List.mem_cons] at hpiece
      rcases hpiece with rfl | hpiece
      · have hstart := List.rdropWhile_prefix JChar.isSpace (raw.dropWhile JChar.isSpace)
        refine ⟨⟨raw, List.mem_cons_self, fun c hc =>
          (List.dropWhile_suffix _).subset (hstart.subset hc)⟩, fun c hc => ?_,
          last_rdropWhile _⟩
        exact hfront raw c (head?_of_start hstart hc)
      · obtain ⟨⟨raw', hraw', hchars⟩, hrest⟩ := ih (by simpa using hlast) hpiece
        exact ⟨⟨raw', List.mem_cons_of_mem _ hraw', hchars⟩, hrest⟩

theorem IsValue.plain_of_mem_splitOn {value : JString} (hvalue : IsValue value) :
    ∀ raw ∈ value.splitOn (ch ','), ∀ c ∈ raw,
      c ≠ ch ',' ∧ c ≠ ch '#' ∧ c.isLineEnd = false := by
  intro raw hraw c hc
  obtain ⟨hmem, hne⟩ := mem_splitOn hraw hc
  refine ⟨hne, ?_, hvalue.oneLine c hmem⟩
  rintro rfl
  exact hvalue.noComment hmem

theorem split_eq_strip (value : JString) : split value = strip (value.splitOn (ch ',')) := by
  have hsplit := split_joinToString_eq (List.splitOn_ne_nil (ch ',') value)
    fun raw hraw hcomma => (mem_splitOn hraw hcomma).2 rfl
  have hwhole : joinToString (jstr ",") (value.splitOn (ch ',')) = value :=
    List.intercalate_splitOn _
  rwa [hwhole] at hsplit

/-- **The pieces of a value** have no white space at their ends. -/
theorem isPiece_of_mem_split {value : JString} (hvalue : IsValue value) {piece : JString}
    (hpiece : piece ∈ split value) : IsPiece piece := by
  have hvalue_last : ∀ c ∈ value.getLast?, c.isSpace = false := by
    obtain ⟨d, hd, hvisible⟩ := hvalue.last
    intro c hc
    obtain rfl := Option.some.inj (hd.symm.trans hc)
    exact JChar.isSpace_of_not_isTrimmed hvisible
  have hplain := hvalue.plain_of_mem_splitOn
  have hwhole : joinToString (jstr ",") (value.splitOn (ch ',')) = value :=
    List.intercalate_splitOn _
  rw [split_eq_strip] at hpiece
  cases hcut : value.splitOn (ch ',') with
  | nil => exact absurd hcut (List.splitOn_ne_nil _ _)
  | cons raw raws =>
    rw [hcut] at hpiece hwhole hplain
    cases raws with
    | nil =>
      rw [joinToString_singleton] at hwhole
      obtain rfl : piece = raw := List.mem_singleton.mp hpiece
      subst hwhole
      exact ⟨hplain _ List.mem_cons_self, hvalue.head, hvalue_last⟩
    | cons next raws =>
      have hmem := (List.rdropWhile_prefix _ _).subset hpiece
      rcases List.mem_cons.mp hmem with rfl | hmem
      · have hstart := List.rdropWhile_prefix JChar.isSpace raw
        refine ⟨fun c hc => hplain raw List.mem_cons_self c (hstart.subset hc), fun c hc => ?_,
          last_rdropWhile _⟩
        refine hvalue.head c (head?_of_start (hstart.trans ?_) hc)
        rw [← hwhole, joinToString_cons_cons, List.append_assoc]
        exact List.prefix_append _ _
      · have hends : ∀ raw ∈ (next :: raws).getLast?, ∀ c ∈ raw.getLast?, c.isSpace = false := by
          intro last hlast c hc
          refine hvalue_last c (getLast?_of_suffix ?_ hc)
          have hsuffix : last <:+ joinToString (jstr ",") (raw :: next :: raws) :=
            suffix_joinToString (by simpa using hlast)
          rwa [hwhole] at hsuffix
        obtain ⟨⟨raw', hraw', hchars⟩, hhead, hlast⟩ := mem_stripPieces hends hmem
        exact ⟨fun c hc => hplain raw' (List.mem_cons_of_mem _ hraw') c (hchars c hc), hhead, hlast⟩

/-! ## Values of visible characters, and values that were read -/

/-- Visible characters only, and neither a comma nor a comment sign. -/
def IsPlain (s : JString) : Prop :=
  s ≠ [] ∧ ∀ c ∈ s, 0x20 < c.toNat ∧ c ≠ ch ',' ∧ c ≠ ch '#'

theorem isPiece_of_plain {s : JString}
    (h : ∀ c ∈ s, 0x20 < c.toNat ∧ c ≠ ch ',' ∧ c ≠ ch '#') : IsPiece s where
  plain := fun c hc => ⟨(h c hc).2.1, (h c hc).2.2, (JChar.visible_of_lt (h c hc).1).2.2⟩
  head := fun c hc => (JChar.visible_of_lt (h c (List.mem_of_mem_head? hc)).1).1
  last := fun c hc => (JChar.visible_of_lt (h c (List.mem_of_getLast? hc)).1).1

theorem endsVisibly_of_isPlain {names : List JString} (h : ∀ name ∈ names, IsPlain name) :
    EndsVisibly names := by
  intro a ha
  obtain ⟨hne, hplain⟩ := h a (List.mem_of_getLast? ha)
  exact ⟨_, List.getLast?_eq_some_getLast hne,
    (JChar.visible_of_lt (hplain _ (List.getLast_mem hne)).1).2.1⟩

theorem isValue_of_plain {s : JString} (hne : s ≠ [])
    (h : ∀ c ∈ s, 0x20 < c.toNat ∧ c ≠ ch '#') : IsValue s where
  head := fun c hc => (JChar.visible_of_lt (h c (List.mem_of_mem_head? hc)).1).1
  last := ⟨_, List.getLast?_eq_some_getLast hne,
    (JChar.visible_of_lt (h _ (List.getLast_mem hne)).1).2.1⟩
  noComment := fun hc => (h _ hc).2 rfl
  oneLine := fun c hc => (JChar.visible_of_lt (h c hc).1).2.2

/-- What is read in a line is a back part of it. -/
theorem suffix_of_parse {line : JString} {attr : Attribute} (h : parse line = some attr) :
    attr.value <:+ line ∧ attr.value ≠ [] ∧ ch '#' ∉ attr.value ∧
      ∀ c ∈ attr.value.head?, c.isSpace = false := by
  rw [parse] at h
  split at h
  · rename_i c rest hrest
    dsimp only at h
    split at h
    · rename_i hcond
      rw [← Option.some.inj h]
      refine ⟨?_, hcond.2.2.1, hcond.2.2.2, fun d hd => ?_⟩
      · have hsuffix : c :: rest <:+ line := by
          rw [← hrest]
          exact (List.dropWhile_suffix _).trans (List.dropWhile_suffix _)
        exact ((List.dropWhile_suffix _).trans (List.suffix_cons _ _)).trans hsuffix
      · have h := List.head?_dropWhile_not JChar.isSpace rest
        rw [hd] at h
        simpa using h
    · exact absurd h (by simp)
  · exact absurd h (by simp)

/-- **What is read is a value.** -/
theorem isValue_of_parse {raw : JString} (hraw : OneLine raw) {attr : Attribute}
    (h : parse (Config.cleanLine raw) = some attr) : IsValue attr.value := by
  obtain ⟨hsuffix, hne, hcomment, hhead⟩ := suffix_of_parse h
  have hlast := List.getLast?_eq_some_getLast hne
  refine ⟨hhead, ⟨_, hlast, ?_⟩, hcomment, fun c hc => ?_⟩
  · exact last_rdropWhile _ _ (getLast?_of_suffix hsuffix hlast)
  · have hclean : c ∈ Config.cleanLine raw := hsuffix.subset hc
    have htrim := (List.rdropWhile_prefix _ _).subset hclean
    exact hraw c ((List.takeWhile_prefix _).subset ((List.dropWhile_suffix _).subset htrim))

end Attribute
end AioVpn
