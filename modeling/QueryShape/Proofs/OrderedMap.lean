import Mathlib.Data.List.Induction
import Mathlib.Data.List.Nodup
import QueryShape.Data.OrderedMap

/-!
# Laws of ordered maps

A map that is filled from a list has each key once, at its first place, with its last value
(`keys_ofList`, `find?_ofList`), and these two facts determine it (`eq_of_find?`).
-/

set_option autoImplicit false

namespace QueryShape

theorem eraseDups_concat {κ : Type} [DecidableEq κ] (ks : List κ) (k : κ) :
    (ks ++ [k]).eraseDups = if k ∈ ks then ks.eraseDups else ks.eraseDups ++ [k] := by
  rw [List.eraseDups_append, List.removeAll, List.filter_singleton]
  by_cases hk : k ∈ ks
  · simp [hk]
  · simp [hk]
    rfl

theorem nodup_eraseDups {κ : Type} [DecidableEq κ] (ks : List κ) : ks.eraseDups.Nodup := by
  induction ks using List.reverseRecOn with
  | nil => exact List.nodup_nil
  | append_singleton ks k ih =>
    rw [eraseDups_concat]
    split
    · exact ih
    · rename_i hk
      exact ih.append (List.nodup_singleton k) (by simpa using hk)

namespace OrderedMap

variable {κ α : Type} [DecidableEq κ] {m m' : OrderedMap κ α} {k : κ} {v : α}

theorem contains_iff_mem_keys (m : OrderedMap κ α) (key : κ) :
    contains m key = true ↔ key ∈ keys m := by
  simp only [contains, keys, List.any_eq_true, decide_eq_true_eq, List.mem_map]

theorem mem_of_find? (h : find? m k = some v) : (k, v) ∈ m := by
  induction m with
  | nil => cases h
  | cons e m ih =>
    simp only [find?] at h
    split at h
    · rename_i hk
      cases h
      rw [← hk]
      exact List.mem_cons_self
    · exact List.mem_cons_of_mem _ (ih h)

theorem find?_eq_none (h : k ∉ keys m) : find? m k = none := by
  induction m with
  | nil => rfl
  | cons e m ih =>
    simp only [keys, List.map_cons, List.mem_cons, not_or] at h
    rw [find?, if_neg (Ne.symm h.1)]
    exact ih h.2

theorem find?_of_mem (hd : (keys m).Nodup) (h : (k, v) ∈ m) : find? m k = some v := by
  induction m with
  | nil => exact (List.not_mem_nil h).elim
  | cons e m ih =>
    obtain ⟨k', v'⟩ := e
    obtain ⟨hnot, hd⟩ := List.nodup_cons.1 hd
    rcases List.mem_cons.1 h with he | h
    · cases he
      rw [find?, if_pos rfl]
    · have hne : k' ≠ k := by
        rintro rfl
        exact hnot (List.mem_map.2 ⟨_, h, rfl⟩)
      rw [find?, if_neg hne]
      exact ih hd h

theorem ofList_concat (es : List (κ × α)) (e : κ × α) :
    ofList (es ++ [e]) = insert (ofList es) e.1 e.2 := by
  rw [ofList, List.foldl_append]
  rfl

/-- Each key stands at its first place. -/
theorem keys_ofList (es : List (κ × α)) : keys (ofList es) = (keys es).eraseDups := by
  induction es using List.reverseRecOn with
  | nil => rfl
  | append_singleton es e ih =>
    have hkeys : keys (es ++ [e]) = keys es ++ [e.1] := by simp [keys]
    rw [ofList_concat, keys_insert, ih, hkeys, eraseDups_concat]
    simp only [List.mem_eraseDups]

/-- Each key has its last value. -/
theorem find?_ofList (es : List (κ × α)) (k : κ) : find? (ofList es) k = find? es.reverse k := by
  induction es using List.reverseRecOn with
  | nil => rfl
  | append_singleton es e ih =>
    rw [ofList_concat, find?_insert, ih, List.reverse_append, List.reverse_singleton,
      List.singleton_append, find?]

theorem insert_of_notMem (h : k ∉ keys m) : insert m k v = m ++ [(k, v)] := by
  induction m with
  | nil => rfl
  | cons e m ih =>
    simp only [keys, List.map_cons, List.mem_cons, not_or] at h
    rw [insert, if_neg (Ne.symm h.1), ih h.2]
    rfl

theorem mem_of_mem_insert {e : κ × α} (h : e ∈ insert m k v) : e ∈ m ∨ e = (k, v) := by
  induction m with
  | nil => exact .inr (List.mem_singleton.1 h)
  | cons e' m ih =>
    rw [insert] at h
    split at h
    · rename_i hk
      rcases List.mem_cons.1 h with rfl | h
      · exact .inr (by rw [hk])
      · exact .inl (List.mem_cons_of_mem _ h)
    · rcases List.mem_cons.1 h with rfl | h
      · exact .inl List.mem_cons_self
      · exact (ih h).imp_left (List.mem_cons_of_mem _)

/-- A map has no other entries than those it was filled with. -/
theorem mem_of_mem_ofList {es : List (κ × α)} {e : κ × α} (h : e ∈ ofList es) : e ∈ es := by
  induction es using List.reverseRecOn with
  | nil => exact h
  | append_singleton es e' ih =>
    rw [ofList_concat] at h
    rcases mem_of_mem_insert h with h | rfl
    · exact List.mem_append_left _ (ih h)
    · exact List.mem_append_right _ List.mem_cons_self

/-- Entries with different keys are the map that they fill. -/
theorem ofList_of_nodup {es : List (κ × α)} (h : (keys es).Nodup) : ofList es = es := by
  induction es using List.reverseRecOn with
  | nil => rfl
  | append_singleton es e ih =>
    have hkeys : keys (es ++ [e]) = keys es ++ [e.1] := by simp [keys]
    rw [hkeys, List.nodup_append] at h
    have hnot : e.1 ∉ keys es := fun hm => h.2.2 _ hm _ List.mem_cons_self rfl
    rw [ofList_concat, ih h.1, insert_of_notMem hnot]

theorem eq_of_find? (hk : keys m = keys m') (hd : (keys m).Nodup)
    (h : ∀ k, find? m k = find? m' k) : m = m' := by
  induction m generalizing m' with
  | nil =>
    cases m' with
    | nil => rfl
    | cons e m' => cases hk
  | cons e m ih =>
    obtain _ | ⟨e', m'⟩ := m'
    · cases hk
    · obtain ⟨k, v⟩ := e
      obtain ⟨k', v'⟩ := e'
      simp only [keys, List.map_cons, List.cons.injEq] at hk
      obtain ⟨rfl, hk⟩ := hk
      have hv := h k
      simp only [find?, ↓reduceIte, Option.some.injEq] at hv
      subst hv
      have hnot : k ∉ keys m := (List.nodup_cons.1 hd).1
      have htail : ∀ j, find? m j = find? m' j := by
        intro j
        by_cases hj : k = j
        · rw [← hj, find?_eq_none hnot, find?_eq_none (m := m') (by rwa [keys, ← hk])]
        · simpa only [find?, hj, ↓reduceIte] using h j
      rw [ih hk (List.nodup_cons.1 hd).2 htail]

end OrderedMap

end QueryShape
