/-
Lists of pairs as tables that keep the order in which their keys came. A value set again stays where the key was.
-/

namespace Classwright.Table

variable {κ α : Type} [DecidableEq κ]

def get? (t : List (κ × α)) (k : κ) : Option α :=
  match t with
  | [] => none
  | (k', a) :: rest => if k' = k then some a else get? rest k

def has (t : List (κ × α)) (k : κ) : Bool := (get? t k).isSome

/-- a new value in the place of the old one, or at the end -/
def set (t : List (κ × α)) (k : κ) (a : α) : List (κ × α) :=
  match t with
  | [] => [(k, a)]
  | (k', a') :: rest => if k' = k then (k, a) :: rest else (k', a') :: set rest k a

theorem get?_set_self (t : List (κ × α)) (k : κ) (a : α) : get? (set t k a) k = some a := by
  induction t with
  | nil => simp [set, get?]
  | cons p rest ih =>
    obtain ⟨k', a'⟩ := p
    by_cases h : k' = k <;> simp [set, get?, h, ih]

theorem get?_set_of_ne (t : List (κ × α)) {k other : κ} (a : α) (h : k ≠ other) :
    get? (set t k a) other = get? t other := by
  induction t with
  | nil => simp [set, get?, h]
  | cons p rest ih =>
    obtain ⟨k', a'⟩ := p
    by_cases hk : k' = k
    · subst hk; simp [set, get?, h]
    · rw [set, if_neg hk, get?, get?, ih]

theorem get?_filter (t : List (κ × α)) (f : κ → Bool) (k : κ) :
    get? (t.filter fun p => f p.1) k = if f k then get? t k else none := by
  induction t with
  | nil => simp [get?]
  | cons p rest ih =>
    obtain ⟨k', a⟩ := p
    by_cases hk : k' = k
    · subst hk
      by_cases hf : f k' <;> simp [get?, hf, ih]
    · by_cases hf : f k' <;> simp [get?, hf, hk, ih]

end Classwright.Table
