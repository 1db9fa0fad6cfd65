/-
Keys of a table: which there are, that none comes twice, and what a look-up has to do with them.

- `keys_set`: setting a key keeps the keys as they are, or adds it at the end;
- `nodup_set`: no key comes twice, however often it is set;
- `set_append_of_mem`, `set_append_of_not_mem`: of two tables in a row, the first is changed if it has the key;
- `get?_set`: a look-up after a change, in one equation;
- `get?_of_mem`, `mem_of_get?`: where no key comes twice, look-ups find the rows and nothing else.
-/
import Mathlib.Data.List.Nodup
import Classwright.Table

namespace Classwright.Table

variable {κ α : Type}

def keys (t : List (κ × α)) : List κ := t.map Prod.fst

@[simp] theorem keys_nil : keys ([] : List (κ × α)) = [] := rfl

@[simp] theorem keys_cons (p : κ × α) (t : List (κ × α)) : keys (p :: t) = p.1 :: keys t := rfl

variable [DecidableEq κ]

theorem get?_set (t : List (κ × α)) (k other : κ) (a : α) :
    get? (set t k a) other = if k = other then some a else get? t other := by
  split_ifs with h
  · subst h; exact get?_set_self t k a
  · exact get?_set_of_ne t a h

theorem keys_set (t : List (κ × α)) (k : κ) (a : α) :
    keys (set t k a) = if k ∈ keys t then keys t else keys t ++ [k] := by
  induction t with
  | nil => simp [set]
  | cons p rest ih =>
    obtain ⟨k', a'⟩ := p
    by_cases h : k' = k
    · subst h; simp [set]
    · have h' : ¬ k = k' := fun e => h e.symm
      simp only [set, if_neg h, keys_cons, ih, List.mem_cons, h', false_or]
      split_ifs <;> rfl

@[simp] theorem mem_keys_set (t : List (κ × α)) (k other : κ) (a : α) :
    other ∈ keys (set t k a) ↔ other = k ∨ other ∈ keys t := by
  rw [keys_set]
  split_ifs with h
  · constructor
    · exact Or.inr
    · rintro (rfl | h')
      · exact h
      · exact h'
  · rw [List.mem_append, List.mem_singleton, or_comm]

theorem nodup_set {t : List (κ × α)} (h : (keys t).Nodup) (k : κ) (a : α) : (keys (set t k a)).Nodup := by
  rw [keys_set]
  split_ifs with hk
  · exact h
  · refine List.nodup_append.2 ⟨h, List.nodup_singleton k, ?_⟩
    rintro x hx y hy rfl
    rw [List.mem_singleton] at hy
    rw [hy] at hx
    exact hk hx

theorem set_eq_self {t : List (κ × α)} {k : κ} {a : α} (h : get? t k = some a) : set t k a = t := by
  induction t with
  | nil => cases h
  | cons p rest ih =>
    obtain ⟨k', a'⟩ := p
    rw [get?] at h
    rw [set]
    split_ifs at h ⊢ with hk
    · rw [hk, Option.some.inj h]
    · rw [ih h]

theorem set_append_of_mem {t : List (κ × α)} {k : κ} (h : k ∈ keys t) (u : List (κ × α)) (a : α) :
    set (t ++ u) k a = set t k a ++ u := by
  induction t with
  | nil => cases h
  | cons p rest ih =>
    obtain ⟨k', a'⟩ := p
    by_cases hk : k' = k
    · simp only [List.cons_append, set, if_pos hk]
    · have hrest : k ∈ keys rest := (List.mem_cons.1 h).resolve_left (Ne.symm hk)
      simp only [List.cons_append, set, if_neg hk, ih hrest]

theorem set_append_of_not_mem {t : List (κ × α)} {k : κ} (h : k ∉ keys t) (u : List (κ × α)) (a : α) :
    set (t ++ u) k a = t ++ set u k a := by
  induction t with
  | nil => rfl
  | cons p rest ih =>
    obtain ⟨k', a'⟩ := p
    obtain ⟨hk, hrest⟩ := not_or.1 (mt List.mem_cons.2 h)
    simp only [List.cons_append, set, if_neg (Ne.symm hk), ih hrest]

theorem set_of_not_mem {t : List (κ × α)} {k : κ} (h : k ∉ keys t) (a : α) : set t k a = t ++ [(k, a)] := by
  calc set t k a = set (t ++ []) k a := by rw [List.append_nil]
    _ = t ++ [(k, a)] := set_append_of_not_mem h [] a

theorem get?_append (t u : List (κ × α)) (k : κ) : get? (t ++ u) k = (get? t k).or (get? u k) := by
  induction t with
  | nil => rfl
  | cons p rest ih =>
    obtain ⟨k', a'⟩ := p
    simp only [List.cons_append, get?, ih]
    split_ifs <;> rfl

theorem mem_of_get? {t : List (κ × α)} {k : κ} {a : α} (h : get? t k = some a) : (k, a) ∈ t := by
  induction t with
  | nil => simp [get?] at h
  | cons p rest ih =>
    obtain ⟨k', a'⟩ := p
    rw [get?] at h
    split_ifs at h with hk
    · cases h; subst hk; exact List.mem_cons_self
    · exact List.mem_cons_of_mem _ (ih h)

theorem get?_of_mem {t : List (κ × α)} (h : (keys t).Nodup) {k : κ} {a : α} (hm : (k, a) ∈ t) : get? t k = some a := by
  induction t with
  | nil => cases hm
  | cons p rest ih =>
    obtain ⟨k', a'⟩ := p
    obtain ⟨hk, hrest⟩ := List.nodup_cons.1 h
    rcases List.mem_cons.1 hm with hp | hm
    · cases hp
      rw [get?, if_pos rfl]
    · have hne : k' ≠ k := by
        rintro rfl
        exact hk (List.mem_map.2 ⟨(k', a), hm, rfl⟩)
      rw [get?, if_neg hne]
      exact ih hrest hm

theorem mem_of_mem_set {t : List (κ × α)} {k : κ} {a : α} {p : κ × α} (h : p ∈ set t k a) : p = (k, a) ∨ p ∈ t := by
  induction t with
  | nil => exact Or.inl (List.mem_singleton.1 h)
  | cons q rest ih =>
    obtain ⟨k', a'⟩ := q
    rw [set] at h
    split_ifs at h
    · rcases List.mem_cons.1 h with h | h
      · exact Or.inl h
      · exact Or.inr (List.mem_cons_of_mem _ h)
    · rcases List.mem_cons.1 h with h | h
      · exact Or.inr (List.mem_cons.2 (Or.inl h))
      · exact (ih h).imp id (List.mem_cons_of_mem _)

theorem isSome_get?_iff (t : List (κ × α)) (k : κ) : (get? t k).isSome ↔ k ∈ keys t := by
  induction t with
  | nil => simp [get?]
  | cons p rest ih =>
    obtain ⟨k', a'⟩ := p
    by_cases h : k' = k
    · simp [get?, h]
    · have h' : ¬ k = k' := fun e => h e.symm
      simp [get?, h, h', ih]

end Classwright.Table
