import Mathlib

/-! Texts laid end to end with nothing between them. The tree of a text keeps its pieces apart;
`render` forgets where they end. A rendered text fixes the tree as soon as the boundaries of all
pieces but one are known. -/

namespace Unseparated

inductive Doc where
  | empty
  | text (s : String)
  | cat (a b : Doc)
deriving DecidableEq, Repr

namespace Doc

def render : Doc → String
  | empty => ""
  | text s => s
  | cat a b => a.render ++ b.render

def listing : List Doc → Doc
  | [] => empty
  | d :: ds => cat d (listing ds)

/-- The two trees have the same branches; the texts at their leaves are free. -/
def Aligned : Doc → Doc → Prop
  | empty, empty => True
  | text _, text _ => True
  | cat a b, cat c d => a.Aligned c ∧ b.Aligned d
  | _, _ => False

instance decidableAligned : (a b : Doc) → Decidable (a.Aligned b)
  | empty, empty => isTrue trivial
  | text _, text _ => isTrue trivial
  | cat a b, cat c d =>
    match decidableAligned a c, decidableAligned b d with
    | isTrue h, isTrue h' => isTrue ⟨h, h'⟩
    | isFalse h, _ => isFalse fun hc => h hc.1
    | _, isFalse h => isFalse fun hc => h hc.2
  | empty, text _ => isFalse id
  | empty, cat _ _ => isFalse id
  | text _, empty => isFalse id
  | text _, cat _ _ => isFalse id
  | cat _ _, empty => isFalse id
  | cat _ _, text _ => isFalse id

/-- How many corresponding leaves have texts of different lengths. -/
def shifts : Doc → Doc → Nat
  | text s, text t => if s.length = t.length then 0 else 1
  | cat a b, cat c d => a.shifts c + b.shifts d
  | _, _ => 0

@[simp] theorem render_empty : empty.render = "" := rfl
@[simp] theorem render_text (s : String) : (text s).render = s := rfl
@[simp] theorem render_cat (a b : Doc) : (cat a b).render = a.render ++ b.render := rfl

theorem render_listing (ds : List Doc) : (listing ds).render = String.join (ds.map render) := by
  induction ds with
  | nil => rfl
  | cons d ds ih => rw [listing, render_cat, ih, List.map_cons, String.join_cons]

@[simp] theorem listing_inj {ds es : List Doc} : listing ds = listing es ↔ ds = es := by
  induction ds generalizing es with
  | nil => cases es <;> simp [listing]
  | cons d ds ih => cases es <;> simp [listing, ih]

theorem listing_map_inj {α : Type*} {f : α → Doc} (hf : Function.Injective f) {xs ys : List α} :
    listing (xs.map f) = listing (ys.map f) ↔ xs = ys := by
  rw [listing_inj, (List.map_injective_iff.mpr hf).eq_iff]

theorem Aligned.refl (d : Doc) : d.Aligned d := by
  induction d with
  | empty => trivial
  | text s => trivial
  | cat a b iha ihb => exact ⟨iha, ihb⟩

theorem shifts_self (d : Doc) : d.shifts d = 0 := by
  induction d with
  | empty => rfl
  | text s => simp [shifts]
  | cat a b iha ihb => simp [shifts, iha, ihb]

theorem length_eq_of_shifts_zero {d e : Doc} (h : d.Aligned e) (hs : d.shifts e = 0) :
    d.render.length = e.render.length := by
  induction d generalizing e with
  | empty => cases e <;> simp_all [Aligned]
  | text s => cases e <;> simp_all [Aligned, shifts]
  | cat a b iha ihb =>
    cases e with
    | cat c d =>
      simp only [shifts, Nat.add_eq_zero_iff] at hs
      simp only [render_cat, String.length_append]
      rw [iha h.1 hs.1, ihb h.2 hs.2]
    | empty => exact h.elim
    | text t => exact h.elim

/-- One displaced boundary cannot be made up for elsewhere. -/
theorem length_ne_of_shifts_one {d e : Doc} (h : d.Aligned e) (hs : d.shifts e = 1) :
    d.render.length ≠ e.render.length := by
  induction d generalizing e with
  | empty => cases e <;> simp_all [shifts]
  | text s => cases e <;> simp_all [shifts]
  | cat a b iha ihb =>
    cases e with
    | cat c d =>
      simp only [render_cat, String.length_append]
      have hab : a.shifts c + b.shifts d = 1 := hs
      rcases Nat.eq_zero_or_pos (a.shifts c) with ha | ha
      · have hlen := length_eq_of_shifts_zero h.1 ha
        have hne := ihb h.2 (by omega)
        omega
      · have hlen := length_eq_of_shifts_zero h.2 (by omega : b.shifts d = 0)
        have hne := iha h.1 (by omega)
        omega
    | empty => exact h.elim
    | text t => exact h.elim

theorem eq_of_shifts_zero {d e : Doc} (h : d.Aligned e) (hs : d.shifts e = 0)
    (hr : d.render = e.render) : d = e := by
  induction d generalizing e with
  | empty => cases e <;> simp_all [Aligned]
  | text s => cases e <;> simp_all [Aligned]
  | cat a b iha ihb =>
    cases e with
    | cat c d =>
      have hac : a.shifts c = 0 := Nat.eq_zero_of_add_eq_zero_right hs
      have hbd : b.shifts d = 0 := Nat.eq_zero_of_add_eq_zero_left hs
      have hlist : a.render.toList ++ b.render.toList = c.render.toList ++ d.render.toList := by
        rw [← String.toList_append, ← String.toList_append]
        exact congrArg String.toList hr
      have hlen : a.render.toList.length = c.render.toList.length :=
        length_eq_of_shifts_zero h.1 hac
      obtain ⟨ha, hb⟩ := List.append_inj hlist hlen
      rw [iha h.1 hac (String.toList_inj.mp ha), ihb h.2 hbd (String.toList_inj.mp hb)]
    | empty => exact h.elim
    | text t => exact h.elim

/-- Trees of one form whose boundaries differ in at most one place are told apart by their
texts. -/
theorem eq_of_render_eq {d e : Doc} (h : d.Aligned e) (hs : d.shifts e ≤ 1)
    (hr : d.render = e.render) : d = e := by
  have hne : d.shifts e ≠ 1 := fun h1 => length_ne_of_shifts_one h h1 (congrArg _ hr)
  exact eq_of_shifts_zero h (by omega) hr

end Doc
end Unseparated
