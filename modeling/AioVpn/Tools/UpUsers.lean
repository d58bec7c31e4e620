import AioVpn.Tools.UpOptions

/-!
# The users behind the tunnel

`set_users` gives `netd` the ranges of user numbers whose traffic goes through the tunnel.  The
names of the applications are looked up in the list of packages, the numbers are sorted, and either
the gaps between them are given, up to 99999, or the numbers themselves.

`users_of_written_file`: the ranges cover exactly the users that the configuration means, and no
command has more than eighteen of them.  What it takes is in `Listed` --- no package is listed
twice, and the numbers are small enough to be compared by their difference and not to reach the end
of the range --- and that the byte behind the list of names is zero.

## The byte behind the list

`get_uid_list` goes from token to token with `start = comma + 1`, and ends when `*start` is zero.
The last token ends at the terminating zero, so the loop goes on one byte behind it.  What stands
there belongs to no string: `selected_intercalate` says that the names in that memory are looked up
as if they were in the configuration, up to the next zero.
-/

namespace AioVpn

open JString CString

namespace WgQuick

/-! ## Ranges -/

/-- The user is in the range. -/
def UidRange.Has (r : UidRange) (uid : ℕ) : Prop := r.first ≤ uid ∧ uid ≤ r.last

/-- The user is in a range of one of the commands. -/
def Covers (commands : List (List UidRange)) (uid : ℕ) : Prop :=
  ∃ ranges ∈ commands, ∃ r ∈ ranges, r.Has uid

namespace Users

/-- The user is in a range that was given or is still to be given. -/
def Covers (u : Users) (uid : ℕ) : Prop :=
  WgQuick.Covers u.commands uid ∨ ∃ r ∈ u.ranges, r.Has uid

/-- The commands that were run are full, and the next one is not. -/
structure Fits (u : Users) : Prop where
  commands : ∀ ranges ∈ u.commands, ranges.length ≤ 18
  ranges : u.ranges.length = u.argsPerCommand % 18

theorem covers_add (u : Users) (range : UidRange) (uid : ℕ) :
    (u.add range).Covers uid ↔ u.Covers uid ∨ range.Has uid := by
  rw [add]
  split
  · simp only [Covers, WgQuick.Covers, List.mem_append, List.mem_singleton]
    constructor
    · rintro (⟨ranges, hranges | rfl, r, hr, huid⟩ | ⟨r, hr, -⟩)
      · exact Or.inl (Or.inl ⟨ranges, hranges, r, hr, huid⟩)
      · rcases List.mem_append.mp hr with hr | hr
        · exact Or.inl (Or.inr ⟨r, hr, huid⟩)
        · exact Or.inr (List.mem_singleton.mp hr ▸ huid)
      · exact absurd hr List.not_mem_nil
    · rintro ((⟨ranges, hranges, r, hr, huid⟩ | ⟨r, hr, huid⟩) | huid)
      · exact Or.inl ⟨ranges, Or.inl hranges, r, hr, huid⟩
      · exact Or.inl ⟨_, Or.inr rfl, r, List.mem_append_left _ hr, huid⟩
      · exact Or.inl ⟨_, Or.inr rfl, range, List.mem_append_right _ List.mem_cons_self, huid⟩
  · simp only [Covers, List.mem_append, List.mem_singleton]
    constructor
    · rintro (huid | ⟨r, hr | rfl, huid⟩)
      · exact Or.inl (Or.inl huid)
      · exact Or.inl (Or.inr ⟨r, hr, huid⟩)
      · exact Or.inr huid
    · rintro ((huid | ⟨r, hr, huid⟩) | huid)
      · exact Or.inl huid
      · exact Or.inr ⟨r, Or.inl hr, huid⟩
      · exact Or.inr ⟨range, Or.inr rfl, huid⟩

theorem fits_add {u : Users} (hu : u.Fits) (range : UidRange) : (u.add range).Fits := by
  have hlt := Nat.mod_lt u.argsPerCommand (show 18 > 0 by decide)
  rw [add]
  split
  · refine ⟨List.forall_mem_append.mpr ⟨hu.commands, List.forall_mem_singleton.mpr ?_⟩, ?_⟩
    · rw [List.length_append, List.length_singleton, hu.ranges]
      omega
    · rename_i hfull
      exact hfull.symm
  · rename_i hfull
    refine ⟨hu.commands, ?_⟩
    dsimp only
    rw [List.length_append, List.length_singleton, hu.ranges]
    omega

theorem Fits.length_lt {u : Users} (hu : u.Fits) : u.ranges.length < 18 := by
  rw [hu.ranges]
  exact Nat.mod_lt _ (by decide)

theorem length_finish {u : Users} (hcommands : ∀ ranges ∈ u.commands, ranges.length ≤ 18)
    (hranges : u.ranges.length ≤ 18) : ∀ ranges ∈ u.finish, ranges.length ≤ 18 := by
  rw [finish]
  split
  · exact hcommands
  · exact List.forall_mem_append.mpr ⟨hcommands, List.forall_mem_singleton.mpr hranges⟩

theorem covers_finish (u : Users) (uid : ℕ) : WgQuick.Covers u.finish uid ↔ u.Covers uid := by
  rw [finish, Covers]
  split
  · rename_i hnil
    simp [hnil]
  · simp only [WgQuick.Covers, List.mem_append, List.mem_singleton]
    constructor
    · rintro ⟨ranges, hranges | rfl, hr⟩
      · exact Or.inl ⟨ranges, hranges, hr⟩
      · exact Or.inr hr
    · rintro (⟨ranges, hranges, hr⟩ | hr)
      · exact ⟨ranges, Or.inl hranges, hr⟩
      · exact ⟨u.ranges, Or.inr rfl, hr⟩

end Users

/-! ## The gaps -/

/-- The users of the gaps from a start on: those below one of the numbers, and those up to 99999
when no number is at the end. -/
def Gap (start : ℕ) (uids : List ℕ) (uid : ℕ) : Prop :=
  start ≤ uid ∧ uid ∉ uids ∧
    ((∃ v ∈ uids, uid < v) ∨ uid ≤ 99999 ∧ start < 99999 ∧ ∀ v ∈ uids, v < 99998)

/-- The gap in front of the first number, and the others. -/
theorem gap_cons {start v uid : ℕ} {uids : List ℕ} (hsorted : ∀ w ∈ uids, v ≤ w)
    (hstart : start ≤ v + 1) :
    start ≤ uid ∧ uid < v ∨ Gap (v + 1) uids uid ↔ Gap start (v :: uids) uid := by
  rw [Gap, Gap, List.mem_cons, not_or, List.forall_mem_cons]
  constructor
  · rintro (⟨hle, hlt⟩ | ⟨hle, hmem, hgap⟩)
    · refine ⟨hle, ⟨by omega, fun hmem => ?_⟩, Or.inl ⟨v, List.mem_cons_self, hlt⟩⟩
      have hge := hsorted uid hmem
      omega
    · refine ⟨by omega, ⟨by omega, hmem⟩, ?_⟩
      rcases hgap with ⟨w, hw, hlt⟩ | ⟨hmax, hend, hall⟩
      · exact Or.inl ⟨w, List.mem_cons_of_mem _ hw, hlt⟩
      · exact Or.inr ⟨hmax, by omega, by omega, hall⟩
  · rintro ⟨hle, ⟨hne, hmem⟩, hgap⟩
    rcases Nat.lt_or_gt_of_ne hne with hlt | hgt
    · exact Or.inl ⟨hle, hlt⟩
    · refine Or.inr ⟨hgt, hmem, ?_⟩
      rcases hgap with ⟨w, hw, hlt⟩ | ⟨hmax, -, hend, hall⟩
      · rcases List.mem_cons.mp hw with rfl | hw
        · omega
        · exact Or.inl ⟨w, hw, hlt⟩
      · exact Or.inr ⟨hmax, by omega, hall⟩

/-- **The loop over the users that are kept out** gives the gaps between them. -/
theorem covers_excludeUsers {uids : List ℕ} (hsorted : uids.Pairwise (· ≤ ·)) {start : ℕ}
    (huids : ∀ v ∈ uids, 0 < v ∧ v + 1 < 2 ^ 32 ∧ start ≤ v + 1) (u : Users) (uid : ℕ) :
    (excludeUsers start u uids).Covers uid ↔ u.Covers uid ∨ Gap start uids uid := by
  induction uids generalizing start u with
  | nil =>
    rw [excludeUsers, Gap]
    split
    · rename_i hstart
      simp only [Users.Covers, List.mem_append, List.mem_singleton]
      constructor
      · rintro (huid | ⟨r, hr | rfl, huid⟩)
        · exact Or.inl (Or.inl huid)
        · exact Or.inl (Or.inr ⟨r, hr, huid⟩)
        · exact Or.inr ⟨huid.1, List.not_mem_nil, Or.inr ⟨huid.2, hstart, List.forall_mem_nil _⟩⟩
      · rintro ((huid | ⟨r, hr, huid⟩) | ⟨hle, -, ⟨v, hv, -⟩ | ⟨hmax, -⟩⟩)
        · exact Or.inl huid
        · exact Or.inr ⟨r, Or.inl hr, huid⟩
        · exact absurd hv List.not_mem_nil
        · exact Or.inr ⟨_, Or.inr rfl, hle, hmax⟩
    · rename_i hstart
      simp [hstart]
  | cons v uids ih =>
    rw [List.pairwise_cons] at hsorted
    rw [List.forall_mem_cons] at huids
    obtain ⟨⟨hpos, hmax, hstart⟩, hrest⟩ := huids
    have hnext : (v + 1) % 2 ^ 32 = v + 1 := Nat.mod_eq_of_lt hmax
    have hgap : (if start > v - 1 then u else u.add ⟨start, v - 1⟩).Covers uid ↔
        u.Covers uid ∨ start ≤ uid ∧ uid < v := by
      split
      · constructor
        · exact Or.inl
        · rintro (huid | huid)
          · exact huid
          · omega
      · rw [Users.covers_add, UidRange.Has]
        refine or_congr_right ?_
        dsimp only
        omega
    rw [excludeUsers, hnext, ih hsorted.2
      (fun w hw => ⟨(hrest w hw).1, (hrest w hw).2.1, by have := hsorted.1 w hw; omega⟩), hgap,
      or_assoc]
    exact or_congr_right (gap_cons hsorted.1 hstart)

/-- The last range is put with those that are left, of which there are at most seventeen. -/
theorem length_excludeUsers {uids : List ℕ} {start : ℕ} {u : Users} (hu : u.Fits) :
    ∀ ranges ∈ (excludeUsers start u uids).finish, ranges.length ≤ 18 := by
  induction uids generalizing start u with
  | nil =>
    rw [excludeUsers]
    split
    · refine Users.length_finish hu.commands ?_
      rw [List.length_append, List.length_singleton]
      exact hu.length_lt
    · exact Users.length_finish hu.commands hu.length_lt.le
  | cons v uids ih =>
    rw [excludeUsers]
    refine ih ?_
    split
    · exact hu
    · exact Users.fits_add hu _

example : (excludeUsers 0 {} [10009, 10057, 10057]).finish =
    [[⟨0, 10008⟩, ⟨10010, 10056⟩, ⟨10058, 99999⟩]] := by
  decide

/-! ## The numbers themselves -/

theorem covers_includeUsers (uids : List ℕ) (u : Users) (uid : ℕ) :
    (uids.foldl (fun (u : Users) uid => u.add ⟨uid, uid⟩) u).Covers uid ↔
      u.Covers uid ∨ uid ∈ uids := by
  induction uids generalizing u with
  | nil => simp
  | cons v uids ih =>
    rw [List.foldl_cons, ih, Users.covers_add, or_assoc, List.mem_cons]
    refine or_congr_right (or_congr_left ?_)
    rw [UidRange.Has]
    exact ⟨fun h => le_antisymm h.2 h.1, fun h => ⟨h.ge, h.le⟩⟩

theorem fits_includeUsers {uids : List ℕ} {u : Users} (hu : u.Fits) :
    (uids.foldl (fun (u : Users) uid => u.add ⟨uid, uid⟩) u).Fits := by
  induction uids generalizing u with
  | nil => exact hu
  | cons v uids ih => exact ih (Users.fits_add hu _)

/-! ## The tokens -/

theorem selectedFrom_zero {memory : List CChar} (hzero : memory.head? = some 0#8) (n : ℕ) :
    selectedFrom n memory = [] := by
  cases n with
  | zero => rfl
  | succ n =>
    cases memory with
    | nil => rfl
    | cons c memory => exact if_pos hzero

/-- One token, up to a comma or to the terminating zero. -/
theorem selectedFrom_token {token : CString} (hne : token ≠ []) (hcomma : cch ',' ∉ token)
    (hzero : 0#8 ∉ token) {c : CChar} (hc : c = cch ',' ∨ c = 0#8) (n : ℕ) (rest : List CChar) :
    selectedFrom (n + 1) (token ++ c :: rest) = token :: selectedFrom n rest := by
  have hclass : ∀ b ∈ token, (decide (b ≠ cch ',') && decide (b ≠ 0#8)) = true := by
    intro b hb
    rw [Bool.and_eq_true, decide_eq_true_eq, decide_eq_true_eq]
    exact ⟨fun h => hcomma (h ▸ hb), fun h => hzero (h ▸ hb)⟩
  have hend : ¬ (decide (c ≠ cch ',') && decide (c ≠ 0#8)) = true := by
    rw [Bool.and_eq_true, decide_eq_true_eq, decide_eq_true_eq, not_and_or, not_not, not_not]
    exact hc
  obtain ⟨b, t, rfl⟩ := List.exists_cons_of_ne_nil hne
  have hhead : ((b :: t) ++ c :: rest).head? ≠ some 0#8 := by
    rw [List.cons_append, List.head?_cons, Ne, Option.some_inj]
    exact fun h => hzero (h ▸ List.mem_cons_self)
  have htake : ((b :: t) ++ c :: rest).takeWhile
      (fun c => decide (c ≠ cch ',') && decide (c ≠ 0#8)) = b :: t := by
    rw [List.takeWhile_append_of_pos hclass, List.takeWhile_cons, if_neg hend, List.append_nil]
  have hdrop : ((b :: t) ++ c :: rest).drop ((b :: t).length + 1) = rest := by
    rw [List.append_cons, List.drop_left' (by rw [List.length_append, List.length_singleton])]
  refine (if_neg hhead).trans ?_
  dsimp only
  rw [htake, hdrop]

section Tokens

variable {parts : List CString}
  (hparts : ∀ part ∈ parts, part ≠ [] ∧ cch ',' ∉ part ∧ 0#8 ∉ part) (hne : parts ≠ [])

include hparts hne

theorem selectedFrom_intercalate (n : ℕ) (behind : List CChar) :
    selectedFrom (n + parts.length) ([cch ','].intercalate parts ++ 0#8 :: behind) =
      parts ++ selectedFrom n behind := by
  induction parts with
  | nil => exact absurd rfl hne
  | cons part parts ih =>
    rw [List.forall_mem_cons] at hparts
    obtain ⟨⟨hpart, hcomma, hzero⟩, hparts⟩ := hparts
    cases parts with
    | nil =>
      rw [List.intercalate_singleton, List.length_singleton,
        selectedFrom_token hpart hcomma hzero (Or.inr rfl), List.singleton_append]
    | cons next parts =>
      rw [List.intercalate_cons_cons, List.append_assoc, List.append_assoc, List.singleton_append,
        List.length_cons, ← Nat.add_assoc, selectedFrom_token hpart hcomma hzero (Or.inl rfl),
        ih hparts (List.cons_ne_nil _ _)]
      rfl

theorem length_le_intercalate : parts.length ≤ ([cch ','].intercalate parts).length := by
  induction parts with
  | nil => exact absurd rfl hne
  | cons part parts ih =>
    rw [List.forall_mem_cons] at hparts
    have hpos := List.length_pos_iff.mpr hparts.1.1
    cases parts with
    | nil => rwa [List.intercalate_singleton]
    | cons next parts =>
      have ih := ih hparts.2 (List.cons_ne_nil _ _)
      rw [List.intercalate_cons_cons, List.length_append, List.length_append,
        List.length_singleton, List.length_cons]
      omega

/-- **The names are found, and behind them those that stand in the memory after the string.** -/
theorem selected_intercalate (behind : List CChar) :
    ∃ n, selected ([cch ','].intercalate parts) behind = parts ++ selectedFrom n behind := by
  have hlength := length_le_intercalate hparts hne
  refine ⟨([cch ','].intercalate parts ++ 0#8 :: behind).length - parts.length, ?_⟩
  rw [selected, ← selectedFrom_intercalate hparts hne, Nat.sub_add_cancel]
  rw [List.length_append]
  omega

/-- The loop over the commas counts the names. -/
theorem count_intercalate :
    ([cch ','].intercalate parts).tail.count (cch ',') + 1 = parts.length := by
  have hcount : ([cch ','].intercalate parts).count (cch ',') + 1 = parts.length := by
    induction parts with
    | nil => exact absurd rfl hne
    | cons part parts ih =>
      rw [List.forall_mem_cons] at hparts
      have hpart := List.count_eq_zero.mpr hparts.1.2.1
      cases parts with
      | nil => rw [List.intercalate_singleton, hpart, List.length_singleton]
      | cons next parts =>
        rw [List.intercalate_cons_cons, List.count_append, List.count_append, hpart,
          List.count_singleton_self, List.length_cons, ← ih hparts.2 (List.cons_ne_nil _ _)]
        omega
  obtain ⟨part, parts, rfl⟩ := List.exists_cons_of_ne_nil hne
  obtain ⟨hpart, hcomma, -⟩ := hparts part List.mem_cons_self
  obtain ⟨b, t, rfl⟩ := List.exists_cons_of_ne_nil hpart
  have hb : b ≠ cch ',' := fun h => hcomma (h ▸ List.mem_cons_self)
  rw [← hcount]
  cases parts with
  | nil =>
    rw [List.intercalate_singleton, List.tail_cons, List.count_cons_of_ne hb]
  | cons next parts =>
    rw [List.intercalate_cons_cons, List.cons_append, List.cons_append, List.tail_cons,
      List.count_cons_of_ne hb]

end Tokens

/-! ## The list of numbers -/

/-- The packages of `packages.list`. -/
def installed (packages : List (List CChar)) : List (CString × ℕ) :=
  packages.filterMap fun line => packageOf (ofBuffer line)

/-- No package is listed twice, and the numbers are below the end of the range. -/
structure Listed (packages : List (List CChar)) : Prop where
  names : ((installed packages).map Prod.fst).Nodup
  uids : ∀ p ∈ installed packages, p.2 < 99998

/-- The token is the name of the package. -/
def isNameOf (p : CString × ℕ) (token : CString) : Bool := token ≠ [] && token = p.1

/-- The numbers of the packages among the tokens. -/
def uidsOf (packages : List (CString × ℕ)) (tokens : List CString) : List ℕ :=
  packages.flatMap fun p => (tokens.filter (isNameOf p)).map fun _ => p.2

theorem isNameOf_eq_true {p : CString × ℕ} {token : CString} :
    isNameOf p token = true ↔ token ≠ [] ∧ token = p.1 := by
  rw [isNameOf, Bool.and_eq_true, decide_eq_true_eq, decide_eq_true_eq]

theorem mem_uidsOf {packages : List (CString × ℕ)} {tokens : List CString}
    (htokens : ∀ token ∈ tokens, token ≠ []) {uid : ℕ} :
    uid ∈ uidsOf packages tokens ↔ ∃ token ∈ tokens, (token, uid) ∈ packages := by
  simp only [uidsOf, List.mem_flatMap, List.mem_map, List.mem_filter, isNameOf_eq_true]
  constructor
  · rintro ⟨p, hp, token, ⟨htoken, -, rfl⟩, rfl⟩
    exact ⟨p.1, htoken, hp⟩
  · rintro ⟨token, htoken, hp⟩
    exact ⟨(token, uid), hp, token, ⟨htoken, htokens token htoken, rfl⟩, rfl⟩

/-- Each token is the name of one package at most. -/
theorem length_uidsOf {packages : List (CString × ℕ)} (hnames : (packages.map Prod.fst).Nodup)
    (tokens : List CString) : (uidsOf packages tokens).length ≤ tokens.length := by
  induction packages generalizing tokens with
  | nil => exact Nat.zero_le _
  | cons p packages ih =>
    rw [List.map_cons, List.nodup_cons] at hnames
    -- The names of the first package do not matter for the others.
    have hothers : uidsOf packages (tokens.filter fun token => !isNameOf p token) =
        uidsOf packages tokens := by
      refine List.flatMap_congr fun q hq => congrArg _ ?_
      rw [List.filter_filter]
      refine List.filter_congr fun token _ => ?_
      cases hname : isNameOf q token with
      | false => rfl
      | true =>
        have hne : isNameOf p token = false := by
          rw [Bool.eq_false_iff, Ne, isNameOf_eq_true, (isNameOf_eq_true.mp hname).2]
          exact fun h => hnames.1 (h.2 ▸ List.mem_map_of_mem hq)
        rw [hne]
        rfl
    have hsplit := List.length_eq_length_filter_add (l := tokens) (isNameOf p)
    have ih := ih hnames.2 (tokens.filter fun token => !isNameOf p token)
    rw [hothers] at ih
    rw [uidsOf, List.flatMap_cons, List.length_append, List.length_map, ← uidsOf]
    omega

/-- The difference of two small numbers has the sign of the comparison. -/
theorem compareUid_eq {a b : ℕ} (ha : a < 2 ^ 31) (hb : b < 2 ^ 31) :
    compareUid a b = decide (a ≤ b) := by
  have hle : (BitVec.ofNat 32 a - BitVec.ofNat 32 b).toInt ≤ 0 ↔ a ≤ b := by
    rw [BitVec.toInt_eq_toNat_cond, BitVec.toNat_sub, BitVec.toNat_ofNat, BitVec.toNat_ofNat]
    split <;> omega
  rw [compareUid, decide_eq_decide]
  exact hle

/-- `qsort` sorts small numbers. -/
theorem mergeSort_compareUid {uids : List ℕ} (huids : ∀ uid ∈ uids, uid < 2 ^ 31) :
    uids.mergeSort compareUid = uids.mergeSort := by
  have hsame := List.map_mergeSort (f := id) (r := compareUid) (s := fun a b => decide (a ≤ b))
    fun a ha b hb => compareUid_eq (huids a ha) (huids b hb)
  rwa [List.map_id, List.map_id] at hsame

theorem pos_of_packageOf {line name : CString} {uid : ℕ} (h : packageOf line = some (name, uid)) :
    0 < uid := by
  rw [packageOf] at h
  split at h
  · exact absurd h.symm (Option.some_ne_none _)
  · dsimp only at h
    split at h
    · exact absurd h.symm (Option.some_ne_none _)
    · rename_i hvalid
      obtain ⟨-, rfl⟩ := Prod.mk.inj (Option.some.inj h)
      exact Nat.pos_of_ne_zero fun hzero => hvalid (Or.inl hzero)

theorem pos_of_mem_installed {packages : List (List CChar)} {p : CString × ℕ}
    (hp : p ∈ installed packages) : 0 < p.2 := by
  obtain ⟨line, -, hline⟩ := List.mem_filterMap.mp hp
  exact pos_of_packageOf hline

/-- The user of an application that is named. -/
def Runs (packages : List (List CChar)) (names : LinkedHashSet JString) (uid : ℕ) : Prop :=
  ∃ name ∈ names.elems, (utf8 name, uid) ∈ installed packages

theorem parts_of_plain {names : List JString} (hnames : ∀ name ∈ names, Attribute.IsPlain name) :
    ∀ part ∈ names.map utf8, part ≠ [] ∧ cch ',' ∉ part ∧ 0#8 ∉ part := by
  intro part hpart
  have hcomma := Attribute.comma_notMem hnames part hpart
  obtain ⟨name, hname, rfl⟩ := List.mem_map.mp hpart
  obtain ⟨hne, hchars⟩ := hnames name hname
  refine ⟨utf8_ne_nil hne, hcomma, fun hmem => ?_⟩
  have hlt := lt_of_mem_utf8 (n := 0x20) (by decide) (fun c hc => (hchars c hc).1) _ hmem
  exact absurd hlt (by decide)

section UidList

variable {packages : List (List CChar)} (hlisted : Listed packages) {behind : List CChar}
  (hzero : behind.head? = some 0#8) {names : LinkedHashSet JString}
  (hnames : ∀ name ∈ names.elems, Attribute.IsPlain name)

include hlisted hzero hnames

/-- **`get_uid_list` returns the numbers of the applications, in ascending order.** -/
theorem getUidList_applications :
    ∃ uids, getUidList packages behind (applications names) = some uids ∧
      uids.Pairwise (· ≤ ·) ∧ ∀ uid, uid ∈ uids ↔ Runs packages names uid := by
  rw [applications]
  cases hempty : names.isEmpty with
  | true =>
    refine ⟨[], rfl, List.Pairwise.nil, fun uid => ?_⟩
    have hnil : names.elems = [] := List.isEmpty_iff.mp hempty
    simp [Runs, hnil]
  | false =>
    have hne : names.elems.map utf8 ≠ [] := by
      rw [Ne, List.map_eq_nil_iff]
      exact List.isEmpty_eq_false_iff.mp hempty
    have hparts := parts_of_plain hnames
    obtain ⟨n, hselected⟩ := selected_intercalate hparts hne behind
    rw [selectedFrom_zero hzero, List.append_nil] at hselected
    have hmem : ∀ uid, uid ∈ uidsOf (installed packages) (names.elems.map utf8) ↔
        Runs packages names uid := by
      intro uid
      rw [mem_uidsOf fun part hpart => (hparts part hpart).1, Runs]
      simp only [List.mem_map, exists_exists_and_eq_and]
    have hsmall : ∀ uid ∈ uidsOf (installed packages) (names.elems.map utf8), uid < 2 ^ 31 := by
      intro uid huid
      obtain ⟨name, -, hp⟩ := (hmem uid).mp huid
      have hlt := hlisted.uids _ hp
      omega
    have hlength := length_uidsOf hlisted.names (names.elems.map utf8)
    have hcount := count_intercalate hparts hne
    refine ⟨_, ?_, List.pairwise_mergeSort' (· ≤ ·) _,
      fun uid => List.mem_mergeSort.trans (hmem uid)⟩
    rw [if_neg Bool.false_ne_true, getUidList, Attribute.items, hselected]
    -- no more numbers than names, so that they fit into the memory
    refine (if_pos ?_).trans (congrArg some (mergeSort_compareUid hsmall))
    change (uidsOf (installed packages) (names.elems.map utf8)).length < _
    omega

end UidList

/-! ## `set_users` -/

/-- The user's traffic is meant to go through the tunnel. -/
def Tunnelled (packages : List (List CChar)) (i : Interface) (uid : ℕ) : Prop :=
  if i.includedApplications.isEmpty then uid ≤ 99999 ∧ ¬ Runs packages i.excludedApplications uid
  else Runs packages i.includedApplications uid

theorem fits_empty : ({} : Users).Fits := ⟨List.forall_mem_nil _, rfl⟩

theorem not_covers_empty (uid : ℕ) : ¬ ({} : Users).Covers uid := by
  rintro (⟨ranges, hranges, -⟩ | ⟨r, hr, -⟩)
  · exact absurd hranges List.not_mem_nil
  · exact absurd hr List.not_mem_nil

/-- All users but those of the list. -/
theorem covers_excluded {uids : List ℕ} (hsorted : uids.Pairwise (· ≤ ·))
    (huids : ∀ v ∈ uids, 0 < v ∧ v < 99998) (uid : ℕ) :
    Covers (excludeUsers 0 {} uids).finish uid ↔ uid ≤ 99999 ∧ uid ∉ uids := by
  have hrange : ∀ v ∈ uids, 0 < v ∧ v + 1 < 2 ^ 32 ∧ 0 ≤ v + 1 := by
    intro v hv
    have hbounds := huids v hv
    omega
  rw [Users.covers_finish, covers_excludeUsers hsorted hrange,
    or_iff_right (not_covers_empty uid), Gap]
  constructor
  · rintro ⟨-, hmem, ⟨v, hv, hlt⟩ | ⟨hmax, -⟩⟩
    · have hbounds := huids v hv
      exact ⟨by omega, hmem⟩
    · exact ⟨hmax, hmem⟩
  · rintro ⟨hmax, hmem⟩
    exact ⟨Nat.zero_le _, hmem, Or.inr ⟨hmax, by decide, fun v hv => (huids v hv).2⟩⟩

/-- The users of the list. -/
theorem covers_included (uids : List ℕ) (uid : ℕ) :
    Covers (uids.foldl (fun (u : Users) uid => u.add ⟨uid, uid⟩) {}).finish uid ↔ uid ∈ uids := by
  rw [Users.covers_finish, covers_includeUsers, or_iff_right (not_covers_empty uid)]

/-- **The users behind the tunnel are those the configuration means.** -/
theorem setUsers_covers {packages : List (List CChar)} (hlisted : Listed packages)
    {behind : List CChar} (hzero : behind.head? = some 0#8) {i : Interface}
    (happlications : i.PlainApplications) :
    ∃ commands, setUsers packages behind (applications i.excludedApplications)
        (applications i.includedApplications) = some commands ∧
      (∀ ranges ∈ commands, ranges.length ≤ 18) ∧
      ∀ uid, Covers commands uid ↔ Tunnelled packages i uid := by
  rw [Interface.PlainApplications, List.forall_mem_append] at happlications
  cases hempty : i.includedApplications.isEmpty with
  | true =>
    have hnone : applications i.includedApplications = none := by rw [applications, if_pos hempty]
    obtain ⟨uids, huids, hsorted, hmem⟩ :=
      getUidList_applications hlisted hzero happlications.1
    have hbounds : ∀ v ∈ uids, 0 < v ∧ v < 99998 := by
      intro v hv
      obtain ⟨name, -, hp⟩ := (hmem v).mp hv
      exact ⟨pos_of_mem_installed hp, hlisted.uids _ hp⟩
    refine ⟨(excludeUsers 0 {} uids).finish, ?_, length_excludeUsers fits_empty, fun uid => ?_⟩
    · rw [setUsers, hnone, if_neg (fun h => Bool.false_ne_true h.2),
        if_pos (Or.inr Option.isNone_none), huids]
      rfl
    · rw [covers_excluded hsorted hbounds, Tunnelled, if_pos hempty, hmem]
  | false =>
    have hexcluded := i.exclusive.resolve_left (by rw [hempty]; exact Bool.false_ne_true)
    have hnone : applications i.excludedApplications = none := by
      rw [applications, if_pos hexcluded]
    have hsome : ¬ ((none : Option CString).isSome = true ∨
        (applications i.includedApplications).isNone = true) := by
      rw [applications, hempty]
      rintro (h | h)
      · exact Bool.false_ne_true h
      · exact Bool.false_ne_true h
    obtain ⟨uids, huids, -, hmem⟩ := getUidList_applications hlisted hzero happlications.2
    have hfits : (uids.foldl (fun (u : Users) uid => u.add ⟨uid, uid⟩) {}).Fits :=
      fits_includeUsers fits_empty
    refine ⟨_, ?_, Users.length_finish hfits.commands hfits.length_lt.le, fun uid => ?_⟩
    · rw [setUsers, hnone, if_neg (fun h => Bool.false_ne_true h.1), if_neg hsome, huids]
      rfl
    · rw [covers_included, hmem, Tunnelled, if_neg (by rw [hempty]; exact Bool.false_ne_true)]

/-- **From the file to the users**: the ranges that `wg-quick` gives for a file that the app has
written cover exactly the users that the configuration means. -/
theorem users_of_written_file {net : NetApi} (hnet : net.Documented) {text : JString} {c : Config}
    (hparse : Config.parse net text = .ok c) (happlications : c.interfaze.PlainApplications)
    (hlines : FitsLines net c) {packages : List (List CChar)} (hlisted : Listed packages)
    {behind : List CChar} (hzero : behind.head? = some 0#8) :
    ∃ commands, setUsers packages behind
        (parseOptions (utf8 (c.toWgQuickString net))).excludedApplications
        (parseOptions (utf8 (c.toWgQuickString net))).includedApplications = some commands ∧
      (∀ ranges ∈ commands, ranges.length ≤ 18) ∧
      ∀ uid, Covers commands uid ↔ Tunnelled packages c.interfaze uid := by
  rw [parseOptions_toWgQuickString hnet hparse happlications hlines]
  exact setUsers_covers hlisted hzero happlications

/-- The lines of a list of three packages. -/
def samplePackages : List (List CChar) :=
  [cstr "a.b 10057 0 /data/user/0/a.b default\n", cstr "x.y 10058 0 /data/user/0/x.y default\n",
    cstr "c.d 10009 0 /data/user/0/c.d default\n"]

theorem sample_listed : Listed samplePackages := ⟨by decide, by decide⟩

theorem sample_users :
    Listed samplePackages ∧ ∃ commands, setUsers samplePackages [0#8]
        (parseOptions (utf8 (Config.sampleConfig.toWgQuickString sampleNet))).excludedApplications
        (parseOptions (utf8 (Config.sampleConfig.toWgQuickString sampleNet))).includedApplications =
          some commands ∧
      (∀ ranges ∈ commands, ranges.length ≤ 18) ∧
      ∀ uid, Covers commands uid ↔ Tunnelled samplePackages Config.sampleConfig.interfaze uid :=
  ⟨sample_listed, users_of_written_file sampleNet_documented Config.parse_sampleText
    sample_plain.applications sample_plain.lines sample_listed rfl⟩

end WgQuick
end AioVpn
