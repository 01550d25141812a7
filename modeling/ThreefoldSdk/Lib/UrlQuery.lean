import Mathlib

/-! Query strings by their bytes: how the query at the end of a URL is read as a list of parameters,
and which names and values can be written there as they are. -/

namespace UrlQuery

abbrev Bytes := List UInt8

/-- The value of a hexadecimal digit. -/
def hexValue (b : UInt8) : Option ℕ :=
  if 48 ≤ b.toNat ∧ b.toNat ≤ 57 then some (b.toNat - 48)
  else if 65 ≤ b.toNat ∧ b.toNat ≤ 70 then some (b.toNat - 55)
  else if 97 ≤ b.toNat ∧ b.toNat ≤ 102 then some (b.toNat - 87)
  else none

/-- The byte of an escape: `%` and two hexadecimal digits. -/
def escape (b x y : UInt8) : Option UInt8 :=
  if b = 37 then
    (hexValue x).bind fun m => (hexValue y).map fun n => UInt8.ofNat (16 * m + n)
  else none

def percentDecode : Bytes → Bytes
  | [] => []
  | [b] => [b]
  | [b, x] => [b, x]
  | b :: x :: y :: t =>
    match escape b x y with
    | some c => c :: percentDecode t
    | none => b :: percentDecode (x :: y :: t)

/-- `+` stands for a space. -/
def plus (b : UInt8) : UInt8 := if b = 43 then 32 else b

def formDecode (t : Bytes) : Bytes := percentDecode (t.map plus)

/-- The part of a text before the first `b`, and the one after it. -/
def before (b : UInt8) (t : Bytes) : Bytes := t.takeWhile (· ≠ b)

def after (b : UInt8) (t : Bytes) : Bytes := (t.dropWhile (· ≠ b)).drop 1

def parameter (p : Bytes) : Bytes × Bytes := (formDecode (before 61 p), formDecode (after 61 p))

/-- The parameters between the `&`; empty ones are left out. -/
def parameters (t : Bytes) : List (Bytes × Bytes) :=
  ((t.splitOn 38).filter fun p => decide (p ≠ [])).map parameter

/-- A space or a control. -/
def blank (b : UInt8) : Bool := decide (b.toNat ≤ 32)

/-- What is not a tab or a line break. -/
def kept (b : UInt8) : Bool := decide (b ≠ 9 ∧ b ≠ 10 ∧ b ≠ 13)

/-- What the parser of a URL makes of its end: blanks are taken off, tabs and line breaks taken out,
and from a `#` on it is the fragment. -/
def clean (t : Bytes) : Bytes :=
  before 35 ((t.rdropWhile blank).filter kept)

/-- Without the `?` in front. -/
def query : Bytes → Bytes
  | [] => []
  | b :: t => if b = 63 then t else b :: t

def parse (t : Bytes) : List (Bytes × Bytes) := parameters (query (clean t))

/-- `name=value`. -/
def pair (p : Bytes × Bytes) : Bytes := p.1 ++ 61 :: p.2

def join (ps : List (Bytes × Bytes)) : Bytes := [38].intercalate (ps.map pair)

/-- What ends a value, or is taken out of one. -/
def separators : List UInt8 := [38, 35, 9, 10, 13]

/-- A text that is taken over as it is written. -/
def Separate (t : Bytes) : Prop := ∀ b ∈ t, b ∉ separators

/-- A text that moreover stands for itself. -/
structure Plain (t : Bytes) : Prop where
  separate : Separate t
  spaces : 43 ∉ t
  escapes : ∀ b x y, [b, x, y] <:+: t → escape b x y = none

/-- The text does not end in a blank. -/
def EndsVisibly (t : Bytes) : Prop := t.rdropWhile blank = t

variable {t v : Bytes} {b x y c : UInt8} {p : Bytes × Bytes} {ps : List (Bytes × Bytes)}

theorem length_percentDecode_le (t : Bytes) : (percentDecode t).length ≤ t.length := by
  induction t using percentDecode.induct with
  | case1 => exact le_rfl
  | case2 b => exact le_rfl
  | case3 b x => exact le_rfl
  | case4 b x y t c hc ih =>
    rw [percentDecode, hc]
    simp only [List.length_cons]
    omega
  | case5 b x y t hc ih =>
    rw [percentDecode, hc]
    simp only [List.length_cons] at ih ⊢
    omega

/-- An escape makes a text shorter. -/
theorem percentDecode_eq_of_length (h : (percentDecode t).length = t.length) :
    percentDecode t = t := by
  induction t using percentDecode.induct with
  | case1 => rfl
  | case2 b => rfl
  | case3 b x => rfl
  | case4 b x y t c hc ih =>
    have hle := length_percentDecode_le t
    rw [percentDecode, hc] at h
    simp only [List.length_cons] at h
    omega
  | case5 b x y t hc ih =>
    have hdecode : percentDecode (b :: x :: y :: t) = b :: percentDecode (x :: y :: t) := by
      rw [percentDecode, hc]
    rw [hdecode] at h ⊢
    rw [ih (Nat.succ.inj h)]

theorem no_escape_of_length_lt (h : t.length < 3) :
    ∀ b x y, [b, x, y] <:+: t → escape b x y = none := by
  intro b x y hin
  exact absurd hin.length_le (Nat.not_le_of_lt h)

/-- A text decodes to itself when it has no escape. -/
theorem percentDecode_eq_self_iff :
    percentDecode t = t ↔ ∀ b x y, [b, x, y] <:+: t → escape b x y = none := by
  induction t using percentDecode.induct with
  | case1 => exact iff_of_true rfl (no_escape_of_length_lt (by decide))
  | case2 b => exact iff_of_true rfl (no_escape_of_length_lt (Nat.lt_of_sub_eq_succ rfl))
  | case3 b x => exact iff_of_true rfl (no_escape_of_length_lt (Nat.lt_of_sub_eq_succ rfl))
  | case4 b x y t c hc ih =>
    refine iff_of_false (fun heq => ?_) fun hall => ?_
    · have hle := length_percentDecode_le t
      have hlength := congrArg List.length heq
      rw [percentDecode, hc] at hlength
      simp only [List.length_cons] at hlength
      omega
    · have hin : [b, x, y] <:+: b :: x :: y :: t := ⟨[], t, rfl⟩
      rw [hall b x y hin] at hc
      cases hc
  | case5 b x y t hc ih =>
    have hdecode : percentDecode (b :: x :: y :: t) = b :: percentDecode (x :: y :: t) := by
      rw [percentDecode, hc]
    rw [hdecode, List.cons_eq_cons, and_iff_right rfl, ih]
    constructor
    · intro hall b' x' y' hin
      rcases List.infix_cons_iff.mp hin with hfirst | hin
      · simp only [List.cons_prefix_cons, List.nil_prefix, and_true] at hfirst
        obtain ⟨rfl, rfl, rfl⟩ := hfirst
        exact hc
      · exact hall b' x' y' hin
    · intro hall b' x' y' hin
      exact hall b' x' y' (List.infix_cons_iff.mpr (.inr hin))

theorem length_formDecode_le (t : Bytes) : (formDecode t).length ≤ t.length := by
  have hle := length_percentDecode_le (t.map plus)
  rw [List.length_map] at hle
  exact hle

theorem plus_eq_self_iff : plus b = b ↔ b ≠ 43 := by
  unfold plus
  split_ifs with h
  · rw [h]
    decide
  · exact iff_of_true rfl h

theorem map_plus_eq_self_iff : t.map plus = t ↔ 43 ∉ t := by
  induction t with
  | nil => simp
  | cons b t ih =>
    rw [List.map_cons, List.cons_eq_cons, plus_eq_self_iff, ih, List.mem_cons, not_or, ne_comm]

/-- A value is read as it is written when it has no `+` and no escape. -/
theorem formDecode_eq_self_iff :
    formDecode t = t ↔ 43 ∉ t ∧ ∀ b x y, [b, x, y] <:+: t → escape b x y = none := by
  constructor
  · intro h
    have hlength : (percentDecode (t.map plus)).length = (t.map plus).length := by
      rw [List.length_map]
      exact congrArg List.length h
    have hdecode := percentDecode_eq_of_length hlength
    have hplus : t.map plus = t := hdecode.symm.trans h
    refine ⟨map_plus_eq_self_iff.mp hplus, percentDecode_eq_self_iff.mp ?_⟩
    rw [← hplus]
    exact hdecode
  · rintro ⟨hplus, hescapes⟩
    unfold formDecode
    rw [map_plus_eq_self_iff.mpr hplus]
    exact percentDecode_eq_self_iff.mpr hescapes

theorem Plain.formDecode_eq (h : Plain t) : formDecode t = t :=
  formDecode_eq_self_iff.mpr ⟨h.spaces, h.escapes⟩

/-! The parameter in front. -/

theorem before_sublist (b : UInt8) (t : Bytes) : (before b t).Sublist t :=
  List.takeWhile_sublist _

theorem ne_of_mem_before (h : c ∈ before b t) : c ≠ b := by
  have hne := List.mem_takeWhile_imp (p := fun c => decide (c ≠ b)) h
  exact of_decide_eq_true hne

theorem decide_ne (h : b ∉ t) : ∀ c ∈ t, decide (c ≠ b) = true := by
  intro c hc
  refine decide_eq_true fun heq => h ?_
  rw [← heq]
  exact hc

theorem before_eq_self (h : b ∉ t) : before b t = t := by
  unfold before
  exact List.takeWhile_eq_self_iff.mpr (decide_ne h)

theorem after_eq_nil (h : b ∉ t) : after b t = [] := by
  unfold after
  rw [List.dropWhile_eq_nil_iff.mpr (decide_ne h)]
  rfl

theorem before_append (h : b ∉ t) (v : Bytes) : before b (t ++ v) = t ++ before b v := by
  unfold before
  exact List.takeWhile_append_of_pos (decide_ne h)

theorem after_append (h : b ∉ t) (v : Bytes) : after b (t ++ v) = after b v := by
  unfold after
  rw [List.dropWhile_append_of_pos (decide_ne h)]

theorem before_cons_self (b : UInt8) (v : Bytes) : before b (b :: v) = [] := by simp [before]

theorem after_cons_self (b : UInt8) (v : Bytes) : after b (b :: v) = v := by simp [after]

theorem before_cons_of_ne (h : c ≠ b) (v : Bytes) : before b (c :: v) = c :: before b v := by
  simp [before, h]

theorem after_cons_of_ne (h : c ≠ b) (v : Bytes) : after b (c :: v) = after b v := by
  simp [after, h]

theorem parameters_eq (h : before 38 t ≠ []) :
    parameters t = parameter (before 38 t) :: parameters (after 38 t) := by
  have hfirst : decide (before 38 t ≠ []) = true := decide_eq_true h
  have hsplit : (t.splitOn 38).filter (fun p => decide (p ≠ [])) =
      before 38 t :: ((after 38 t).splitOn 38).filter fun p => decide (p ≠ []) := by
    by_cases hin : 38 ∈ t
    · obtain ⟨x, y, rfl, hx⟩ := List.eq_append_cons_of_mem hin
      rw [before_append hx, before_cons_self, List.append_nil] at hfirst ⊢
      rw [after_append hx, after_cons_self, List.splitOn_append_cons_self_of_not_mem hx,
        List.filter_cons_of_pos (p := fun p => decide (p ≠ [])) hfirst]
    · rw [before_eq_self hin] at hfirst ⊢
      rw [after_eq_nil hin, List.splitOn_eq_singleton hin,
        List.filter_cons_of_pos (p := fun p => decide (p ≠ [])) hfirst]
      rfl
  unfold parameters
  rw [hsplit, List.map_cons]

/-- The value of the first parameter goes to the first `&`. -/
theorem parameters_name {n : Bytes} (hand : 38 ∉ n) (hequals : 61 ∉ n) (u : Bytes) :
    parameters (n ++ 61 :: u) =
      (formDecode n, formDecode (before 38 u)) :: parameters (after 38 u) := by
  have hbefore : before 38 (n ++ 61 :: u) = n ++ 61 :: before 38 u := by
    rw [before_append hand, before_cons_of_ne (by decide)]
  have hafter : after 38 (n ++ 61 :: u) = after 38 u := by
    rw [after_append hand, after_cons_of_ne (by decide)]
  have hne : before 38 (n ++ 61 :: u) ≠ [] := by
    rw [hbefore]
    exact List.append_ne_nil_of_right_ne_nil _ (List.cons_ne_nil _ _)
  have hparameter : parameter (n ++ 61 :: before 38 u) =
      (formDecode n, formDecode (before 38 u)) := by
    rw [parameter, before_append hequals, before_cons_self, List.append_nil,
      after_append hequals, after_cons_self]
  rw [parameters_eq hne, hbefore, hafter, hparameter]

/-! Cleaning. -/

theorem kept_of_separate (h : b ∉ separators) : kept b = true := by
  simp only [separators, List.mem_cons, List.not_mem_nil, or_false, not_or] at h
  exact decide_eq_true ⟨h.2.2.1, h.2.2.2.1, h.2.2.2.2⟩

theorem Separate.and_not_mem (h : Separate t) : 38 ∉ t := fun hin => h 38 hin (by decide)

theorem Separate.hash_not_mem (h : Separate t) : 35 ∉ t := fun hin => h 35 hin (by decide)

theorem Separate.filter_kept (h : Separate t) : t.filter kept = t :=
  List.filter_eq_self.mpr fun b hb => kept_of_separate (h b hb)

theorem rdropWhile_append_cons (hb : 32 < b.toNat) (t v : Bytes) :
    (t ++ b :: v).rdropWhile blank = t ++ b :: v.rdropWhile blank := by
  have hvisible : ¬blank b = true := fun h => absurd (of_decide_eq_true h) (Nat.not_le_of_lt hb)
  have hfront : (b :: t.reverse).dropWhile blank = b :: t.reverse :=
    List.dropWhile_cons_of_neg hvisible
  have hreverse : (t ++ b :: v).reverse = v.reverse ++ b :: t.reverse := by simp
  have hdrop : (v.reverse ++ b :: t.reverse).dropWhile blank =
      v.reverse.dropWhile blank ++ b :: t.reverse := by
    rw [List.dropWhile_append]
    split_ifs with hempty
    · rw [List.isEmpty_iff.mp hempty, List.nil_append, hfront]
    · rfl
  unfold List.rdropWhile
  rw [hreverse, hdrop]
  simp

theorem kept_of_lt (hb : 32 < b.toNat) : kept b = true := by
  refine decide_eq_true ⟨?_, ?_, ?_⟩
  · rintro rfl
    exact absurd hb (by decide)
  · rintro rfl
    exact absurd hb (by decide)
  · rintro rfl
    exact absurd hb (by decide)

/-- What is in front of a visible byte is cleaned apart from what follows. -/
theorem Separate.clean_append_cons (h : Separate t) (hb : 32 < b.toNat) (hhash : b ≠ 35)
    (v : Bytes) : clean (t ++ b :: v) = t ++ b :: clean v := by
  unfold clean
  rw [rdropWhile_append_cons hb, List.filter_append, h.filter_kept,
    List.filter_cons_of_pos (kept_of_lt hb), before_append h.hash_not_mem, before_cons_of_ne hhash]

theorem before_before (b c : UInt8) (t : Bytes) :
    before b (before c t) = before c (before b t) := by
  unfold before
  rw [List.takeWhile_takeWhile, List.takeWhile_takeWhile]
  congr 1
  funext x
  exact decide_eq_decide.mpr and_comm

theorem before_append_cons_self_sublist (b : UInt8) (t v : Bytes) :
    (before b (t ++ b :: v)).Sublist t := by
  by_cases hin : b ∈ t
  · obtain ⟨x, y, rfl, hx⟩ := List.eq_append_cons_of_mem hin
    rw [List.append_assoc, before_append hx, List.cons_append, before_cons_self, List.append_nil]
    exact List.sublist_append_left x _
  · rw [before_append hin, before_cons_self, List.append_nil]

/-- A value that another parameter follows. -/
theorem before_clean_sublist (v u : Bytes) :
    (before 38 (clean (v ++ 38 :: u))).Sublist v := by
  unfold clean
  rw [rdropWhile_append_cons (by decide), List.filter_append,
    List.filter_cons_of_pos (kept_of_lt (by decide)), before_before]
  calc
    (before 35 (before 38 (v.filter kept ++ 38 :: (u.rdropWhile blank).filter kept))).Sublist
        (before 38 (v.filter kept ++ 38 :: (u.rdropWhile blank).filter kept)) :=
      before_sublist 35 _
    List.Sublist _ (v.filter kept) := before_append_cons_self_sublist 38 _ _
    List.Sublist _ v := List.filter_sublist

/-- The value at the end. -/
theorem before_clean_sublist_last (v : Bytes) :
    (before 38 (clean v)).Sublist (v.rdropWhile blank) := by
  unfold clean
  calc
    (before 38 (before 35 ((v.rdropWhile blank).filter kept))).Sublist
        (before 35 ((v.rdropWhile blank).filter kept)) := before_sublist 38 _
    List.Sublist _ ((v.rdropWhile blank).filter kept) := before_sublist 35 _
    List.Sublist _ (v.rdropWhile blank) := List.filter_sublist

/-- Nothing that ends a value, or is taken out of one, is in what was read. -/
theorem separate_before_clean (t : Bytes) : Separate (before 38 (clean t)) := by
  intro b hb
  have hclean := (before_sublist 38 (clean t)).subset hb
  have hkept := (List.mem_filter.mp ((before_sublist 35 _).subset hclean)).2
  have hctl := of_decide_eq_true hkept
  have hand := ne_of_mem_before hb
  have hhash := ne_of_mem_before hclean
  simp [separators, hand, hhash, hctl]

/-- A value is only read as it was when it was taken over and stands for itself. -/
theorem plain_of_formDecode_eq {w : Bytes} (hsub : w.Sublist v) (hw : Separate w)
    (h : formDecode w = v) : w = v ∧ Plain v := by
  have hlength : v.length ≤ w.length := by
    rw [← h]
    exact length_formDecode_le w
  have heq : w = v := hsub.eq_of_length_le hlength
  subst heq
  obtain ⟨hspaces, hescapes⟩ := formDecode_eq_self_iff.mp h
  exact ⟨rfl, hw, hspaces, hescapes⟩

/-! Joined parameters. -/

/-- A name that can stand in front of a `=`. -/
structure Name (n : Bytes) : Prop where
  separate : Separate n
  equals : 61 ∉ n

theorem join_singleton (p : Bytes × Bytes) : join [p] = pair p := List.intercalate_singleton

theorem join_cons_cons (p q : Bytes × Bytes) (ps : List (Bytes × Bytes)) :
    join (p :: q :: ps) = pair p ++ 38 :: join (q :: ps) := by
  unfold join
  rw [List.map_cons, List.map_cons, List.intercalate_cons_cons, List.append_assoc,
    List.singleton_append]

/-- The parameter in front of a cleaned text. -/
theorem parameters_clean_name {n : Bytes} (h : Name n) (u : Bytes) :
    parameters (clean (n ++ 61 :: u)) =
      (formDecode n, formDecode (before 38 (clean u))) :: parameters (after 38 (clean u)) := by
  rw [h.separate.clean_append_cons (by decide) (by decide),
    parameters_name h.separate.and_not_mem h.equals]

/-- A value that is taken over ends at the `&` behind it. -/
theorem parameters_clean_pair {n : Bytes} (h : Name n) (hv : Separate v) (u : Bytes) :
    parameters (clean (pair (n, v) ++ 38 :: u)) =
      (formDecode n, formDecode v) :: parameters (clean u) := by
  have hclean := hv.clean_append_cons (b := 38) (by decide) (by decide) u
  have hpair : pair (n, v) ++ 38 :: u = n ++ 61 :: (v ++ 38 :: u) := by simp [pair]
  rw [hpair, parameters_clean_name h, hclean, before_append hv.and_not_mem, before_cons_self,
    List.append_nil, after_append hv.and_not_mem, after_cons_self]

theorem parameters_clean_last {n : Bytes} (h : Name n) (hv : Separate v) (hend : EndsVisibly v) :
    parameters (clean (pair (n, v))) = [(formDecode n, formDecode v)] := by
  have hclean : clean v = v := by
    unfold clean
    rw [hend, hv.filter_kept, before_eq_self hv.hash_not_mem]
  have hpair : pair (n, v) = n ++ 61 :: v := rfl
  rw [hpair, parameters_clean_name h, hclean, before_eq_self hv.and_not_mem,
    after_eq_nil hv.and_not_mem]
  rfl

/-- What can be taken over is read as it decodes. -/
theorem parameters_clean_join (hname : ∀ p ∈ ps, Name p.1)
    (hvalue : ∀ p ∈ ps, Separate p.2 ∧ EndsVisibly p.2) :
    parameters (clean (join ps)) = ps.map fun p => (formDecode p.1, formDecode p.2) := by
  induction ps with
  | nil => rfl
  | cons p ps ih =>
    have hp := hvalue p List.mem_cons_self
    have hrest := ih (fun q hq => hname q (List.mem_cons_of_mem _ hq))
      fun q hq => hvalue q (List.mem_cons_of_mem _ hq)
    cases ps with
    | nil =>
      rw [join_singleton]
      exact parameters_clean_last (hname p List.mem_cons_self) hp.1 hp.2
    | cons q ps =>
      rw [join_cons_cons, List.map_cons, ← hrest]
      exact parameters_clean_pair (hname p List.mem_cons_self) hp.1 _

theorem plain_of_parameters_clean {n u : Bytes} (hn : Name n)
    (h : parameters (clean (pair (n, v) ++ 38 :: u)) = (n, v) :: ps) : Plain v := by
  have hpair : pair (n, v) ++ 38 :: u = n ++ 61 :: (v ++ 38 :: u) := by simp [pair]
  rw [hpair, parameters_clean_name hn, List.cons_eq_cons, Prod.mk.injEq] at h
  exact (plain_of_formDecode_eq (before_clean_sublist v u) (separate_before_clean _) h.1.2).2

theorem plain_of_parameters_clean_last {n : Bytes} (hn : Name n)
    (h : parameters (clean (pair (n, v))) = (n, v) :: ps) : Plain v ∧ EndsVisibly v := by
  have hpair : pair (n, v) = n ++ 61 :: v := rfl
  rw [hpair, parameters_clean_name hn, List.cons_eq_cons, Prod.mk.injEq] at h
  have hstripped : (v.rdropWhile blank).Sublist v := (List.rdropWhile_prefix blank v).sublist
  have hsub := before_clean_sublist_last v
  obtain ⟨hwhole, hplain⟩ :=
    plain_of_formDecode_eq (hsub.trans hstripped) (separate_before_clean v) h.1.2
  rw [hwhole] at hsub
  exact ⟨hplain, hstripped.antisymm hsub⟩

/-- Joined parameters are read as they are when every value stands for itself, and the last one does
not end in a blank. -/
theorem parameters_clean_join_eq_iff (hname : ∀ p ∈ ps, Name p.1 ∧ formDecode p.1 = p.1) :
    parameters (clean (join ps)) = ps ↔
      (∀ p ∈ ps, Plain p.2) ∧ ∀ p ∈ ps.getLast?, EndsVisibly p.2 := by
  induction ps with
  | nil => exact iff_of_true rfl ⟨fun p hp => (nomatch hp), fun p hp => (nomatch hp)⟩
  | cons p ps ih =>
    obtain ⟨n, v⟩ := p
    obtain ⟨hn, hdecode⟩ := hname (n, v) List.mem_cons_self
    have hrest := ih fun q hq => hname q (List.mem_cons_of_mem _ hq)
    cases ps with
    | nil =>
      rw [join_singleton, List.forall_mem_singleton, List.getLast?_singleton]
      constructor
      · intro h
        obtain ⟨hplain, hend⟩ := plain_of_parameters_clean_last hn h
        refine ⟨hplain, fun p hp => ?_⟩
        cases hp
        exact hend
      · rintro ⟨hplain, hend⟩
        rw [parameters_clean_last hn hplain.separate (hend (n, v) rfl), hdecode,
          hplain.formDecode_eq]
    | cons q ps =>
      rw [join_cons_cons, List.forall_mem_cons, List.getLast?_cons_cons]
      constructor
      · intro h
        have hplain := plain_of_parameters_clean hn h
        rw [parameters_clean_pair hn hplain.separate, List.cons_eq_cons] at h
        exact ⟨⟨hplain, (hrest.mp h.2).1⟩, (hrest.mp h.2).2⟩
      · rintro ⟨⟨hplain, hall⟩, hend⟩
        rw [parameters_clean_pair hn hplain.separate, hrest.mpr ⟨hall, hend⟩, hdecode,
          hplain.formDecode_eq]

/-- A query behind its `?`. -/
theorem parse_question (t : Bytes) : parse (63 :: t) = parameters (clean t) := by
  have hempty : Separate [] := fun b hb => (nomatch hb)
  have hclean : clean (63 :: t) = 63 :: clean t :=
    hempty.clean_append_cons (b := 63) (by decide) (by decide) t
  rw [parse, hclean, query, if_pos rfl]

/-! Percent-encoding. -/

def hexDigit (n : ℕ) : UInt8 := if n < 10 then UInt8.ofNat (48 + n) else UInt8.ofNat (55 + n)

def percentEncode (keep : UInt8 → Bool) (t : Bytes) : Bytes :=
  t.flatMap fun b =>
    if keep b = true then [b] else [37, hexDigit (b.toNat / 16), hexDigit (b.toNat % 16)]

theorem hexValue_hexDigit : ∀ n < 16, hexValue (hexDigit n) = some n := by decide

theorem escape_hexDigit (b : UInt8) :
    escape 37 (hexDigit (b.toNat / 16)) (hexDigit (b.toNat % 16)) = some b := by
  have hlt : b.toNat < 256 := b.toNat_lt
  have hsum : 16 * (b.toNat / 16) + b.toNat % 16 = b.toNat := Nat.div_add_mod b.toNat 16
  rw [escape, if_pos rfl, hexValue_hexDigit _ (by omega), hexValue_hexDigit _ (by omega)]
  show some (UInt8.ofNat (16 * (b.toNat / 16) + b.toNat % 16)) = some b
  rw [hsum, UInt8.ofNat_toNat]

theorem percentDecode_cons_of_ne (h : b ≠ 37) (t : Bytes) :
    percentDecode (b :: t) = b :: percentDecode t := by
  match t with
  | [] => rfl
  | [x] => rfl
  | x :: y :: t =>
    have hnone : escape b x y = none := if_neg h
    rw [percentDecode, hnone]

/-- The bytes of an encoded text. -/
theorem mem_percentEncode {keep : UInt8 → Bool} (h : c ∈ percentEncode keep t) :
    keep c = true ∨ c = 37 ∨ ∃ n < 16, c = hexDigit n := by
  obtain ⟨b, -, hb⟩ := List.mem_flatMap.mp h
  have hlt : b.toNat < 256 := b.toNat_lt
  split_ifs at hb with hkeep
  · rw [List.mem_singleton.mp hb]
    exact .inl hkeep
  · simp only [List.mem_cons, List.not_mem_nil, or_false] at hb
    rcases hb with rfl | rfl | rfl
    · exact .inr (.inl rfl)
    · exact .inr (.inr ⟨_, by omega, rfl⟩)
    · exact .inr (.inr ⟨_, by omega, rfl⟩)

theorem percentDecode_percentEncode {keep : UInt8 → Bool} (h : keep 37 = false) (t : Bytes) :
    percentDecode (percentEncode keep t) = t := by
  induction t with
  | nil => rfl
  | cons b t ih =>
    rw [percentEncode, List.flatMap_cons, ← percentEncode]
    by_cases hkeep : keep b = true
    · have hne : b ≠ 37 := by
        rintro rfl
        rw [h] at hkeep
        cases hkeep
      rw [if_pos hkeep, List.singleton_append, percentDecode_cons_of_ne hne, ih]
    · rw [if_neg hkeep]
      show percentDecode (37 :: hexDigit (b.toNat / 16) :: hexDigit (b.toNat % 16) ::
        percentEncode keep t) = b :: t
      rw [percentDecode, escape_hexDigit, ih]

/-- Visible bytes without a meaning of their own. -/
def Unreserved (keep : UInt8 → Bool) : Prop :=
  ∀ b, keep b = true → b ∉ [37, 43, 38, 35, 61, 63] ∧ 32 < b.toNat

section
variable {keep : UInt8 → Bool}

theorem hexDigit_unreserved :
    ∀ n < 16, hexDigit n ∉ [43, 38, 35, 61, 63] ∧ 32 < (hexDigit n).toNat := by decide

theorem Unreserved.mem_percentEncode (h : Unreserved keep) (hc : c ∈ percentEncode keep t) :
    c ∉ [43, 38, 35, 61, 63] ∧ 32 < c.toNat := by
  rcases UrlQuery.mem_percentEncode hc with hkeep | rfl | ⟨n, hn, rfl⟩
  · obtain ⟨hnot, hlt⟩ := h c hkeep
    exact ⟨fun hin => hnot (List.mem_cons_of_mem _ hin), hlt⟩
  · decide
  · exact hexDigit_unreserved n hn

theorem Unreserved.formDecode_percentEncode (h : Unreserved keep) (t : Bytes) :
    formDecode (percentEncode keep t) = t := by
  have hplus : 43 ∉ percentEncode keep t := fun hin => (h.mem_percentEncode hin).1 (by decide)
  have hpercent : keep 37 = false := by
    by_contra hkeep
    exact (h 37 (Bool.of_not_eq_false hkeep)).1 (by decide)
  rw [formDecode, map_plus_eq_self_iff.mpr hplus, percentDecode_percentEncode hpercent]

theorem Unreserved.separate (h : Unreserved keep) (t : Bytes) : Separate (percentEncode keep t) := by
  intro b hb hin
  obtain ⟨hnot, hlt⟩ := h.mem_percentEncode hb
  simp only [separators, List.mem_cons, List.not_mem_nil, or_false] at hin
  rcases hin with rfl | rfl | rfl | rfl | rfl
  · exact hnot (by decide)
  · exact hnot (by decide)
  · exact absurd hlt (by decide)
  · exact absurd hlt (by decide)
  · exact absurd hlt (by decide)

theorem Unreserved.name (h : Unreserved keep) (t : Bytes) : Name (percentEncode keep t) :=
  ⟨h.separate t, fun hin => (h.mem_percentEncode hin).1 (by decide)⟩

theorem Unreserved.endsVisibly (h : Unreserved keep) (t : Bytes) :
    EndsVisibly (percentEncode keep t) := by
  unfold EndsVisibly
  rw [List.rdropWhile_eq_self_iff]
  intro hne hblank
  have hlt := (h.mem_percentEncode (List.getLast_mem hne)).2
  exact absurd (of_decide_eq_true hblank) (Nat.not_le_of_lt hlt)

/-- A text that is kept as it is can be a name. -/
theorem percentEncode_eq_self (h : ∀ b ∈ t, keep b = true) : percentEncode keep t = t := by
  induction t with
  | nil => rfl
  | cons b t ih =>
    rw [percentEncode, List.flatMap_cons, ← percentEncode, if_pos (h b List.mem_cons_self),
      ih fun c hc => h c (List.mem_cons_of_mem _ hc), List.singleton_append]

theorem Unreserved.name_of_kept (h : Unreserved keep) (ht : ∀ b ∈ t, keep b = true) :
    Name t ∧ formDecode t = t := by
  have hname := h.name t
  have hdecode := h.formDecode_percentEncode t
  rw [percentEncode_eq_self ht] at hname hdecode
  exact ⟨hname, hdecode⟩

theorem query_eq_self (h : 63 ∉ t) : query t = t := by
  cases t with
  | nil => rfl
  | cons b t =>
    have hne : ¬b = 63 := fun heq => h (List.mem_cons.mpr (.inl heq.symm))
    exact if_neg hne

theorem clean_sublist (t : Bytes) : (clean t).Sublist t := by
  unfold clean
  calc
    (before 35 ((t.rdropWhile blank).filter kept)).Sublist ((t.rdropWhile blank).filter kept) :=
      before_sublist 35 _
    List.Sublist _ (t.rdropWhile blank) := List.filter_sublist
    List.Sublist _ t := (List.rdropWhile_prefix blank t).sublist

theorem mem_join (h : c ∈ join ps) : c = 38 ∨ ∃ p ∈ ps, c ∈ pair p := by
  induction ps with
  | nil => exact absurd h List.not_mem_nil
  | cons p ps ih =>
    cases ps with
    | nil =>
      rw [join_singleton] at h
      exact .inr ⟨p, List.mem_cons_self, h⟩
    | cons q ps =>
      rw [join_cons_cons, List.mem_append, List.mem_cons] at h
      rcases h with h | h | h
      · exact .inr ⟨p, List.mem_cons_self, h⟩
      · exact .inl h
      · rcases ih h with h | ⟨r, hr, h⟩
        · exact .inl h
        · exact .inr ⟨r, List.mem_cons_of_mem _ hr, h⟩

theorem Unreserved.question_not_mem (h : Unreserved keep) (ps : List (Bytes × Bytes)) :
    63 ∉ join (ps.map fun p => (percentEncode keep p.1, percentEncode keep p.2)) := by
  have hnot : ∀ t, 63 ∉ percentEncode keep t := fun t hin => (h.mem_percentEncode hin).1 (by decide)
  intro hin
  rcases mem_join hin with hand | ⟨q, hq, hin⟩
  · exact absurd hand (by decide)
  · obtain ⟨p, -, rfl⟩ := List.mem_map.mp hq
    rcases List.mem_append.mp hin with hin | hin
    · exact hnot p.1 hin
    · rcases List.mem_cons.mp hin with hequals | hin
      · exact absurd hequals (by decide)
      · exact hnot p.2 hin

/-- What is encoded is read back, whatever it is. -/
theorem parse_join_percentEncode (h : Unreserved keep) (ps : List (Bytes × Bytes)) :
    parse (join (ps.map fun p => (percentEncode keep p.1, percentEncode keep p.2))) = ps := by
  have hmark := fun hin => h.question_not_mem ps ((clean_sublist _).subset hin)
  rw [parse, query_eq_self hmark, parameters_clean_join, List.map_map]
  · rw [List.map_congr_left (g := id) fun p _ => ?_, List.map_id]
    exact Prod.ext (h.formDecode_percentEncode p.1) (h.formDecode_percentEncode p.2)
  · rw [List.forall_mem_map]
    exact fun p _ => h.name p.1
  · rw [List.forall_mem_map]
    exact fun p _ => ⟨h.separate p.2, h.endsVisibly p.2⟩

end

/-- What `encodeURIComponent` keeps: letters, digits and `-_.!~*'()`. -/
def uriKept (b : UInt8) : Bool :=
  decide (48 ≤ b.toNat ∧ b.toNat ≤ 57 ∨ 65 ≤ b.toNat ∧ b.toNat ≤ 90 ∨
    97 ≤ b.toNat ∧ b.toNat ≤ 122) || decide (b ∈ [45, 95, 46, 33, 126, 42, 39, 40, 41])

theorem lt_of_uriKept (h : uriKept b = true) : 32 < b.toNat ∧ b.toNat < 128 := by
  simp only [uriKept, Bool.or_eq_true, decide_eq_true_eq, List.mem_cons, List.not_mem_nil,
    or_false] at h
  rcases h with h | h
  · omega
  · rcases h with rfl | rfl | rfl | rfl | rfl | rfl | rfl | rfl | rfl <;> decide

theorem uriKept_unreserved : Unreserved uriKept := by
  intro b hb
  refine ⟨fun hin => ?_, (lt_of_uriKept hb).1⟩
  simp only [List.mem_cons, List.not_mem_nil, or_false] at hin
  rcases hin with rfl | rfl | rfl | rfl | rfl | rfl <;> exact absurd hb (by decide)

end UrlQuery
