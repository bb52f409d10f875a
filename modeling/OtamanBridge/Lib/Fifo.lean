import Mathlib.Data.List.Induction
import Mathlib.Data.List.Nodup
import Mathlib.Tactic.Common

/-!
# Dictionaries that forget their oldest entries

A Python `dict` keeps its entries in the order their keys came in, and a value that is set
again stays where its key is. A `dict` that is cut to a number of entries after each insertion
is a queue with look-ups: what has come in last is there, and what is too old is gone
(`OtamanBridge.Fifo.foldl_put`). A look-up that succeeds finds the last value of the key,
whatever keys came (`OtamanBridge.Fifo.mem_foldl_put`).
-/

namespace OtamanBridge

namespace Fifo

variable {α β : Type*} [DecidableEq α]

/-- `d[k] = v`: a key that is there keeps its place. -/
def set (e : α × β) : List (α × β) → List (α × β)
  | [] => [e]
  | e' :: d => if e'.1 = e.1 then e :: d else e' :: set e d

/-- The oldest entries go, until this many are left. -/
def trim (max : ℕ) (d : List (α × β)) : List (α × β) := d.drop (d.length - max)

/-- An entry comes in. -/
def put (max : ℕ) (d : List (α × β)) (e : α × β) : List (α × β) := trim max (set e d)

variable {max : ℕ} {d : List (α × β)} {e e' : α × β} {es : List (α × β)}

/-! ### One entry -/

theorem mem_keys_set {k : α} : k ∈ (set e d).map Prod.fst ↔ k = e.1 ∨ k ∈ d.map Prod.fst := by
  induction d with
  | nil => simp [set]
  | cons e' d ih =>
    rw [set]
    split_ifs with h
    · simp only [List.map_cons, List.mem_cons, h]
      tauto
    · simp only [List.map_cons, List.mem_cons, ih]
      tauto

theorem nodup_set (h : (d.map Prod.fst).Nodup) : ((set e d).map Prod.fst).Nodup := by
  induction d with
  | nil => simp [set]
  | cons e' d ih =>
    rw [List.map_cons, List.nodup_cons] at h
    rw [set]
    split_ifs with hk
    · rw [List.map_cons, List.nodup_cons, ← hk]
      exact h
    · rw [List.map_cons, List.nodup_cons, mem_keys_set]
      refine ⟨?_, ih h.2⟩
      rintro (hkey | hin)
      · exact hk hkey
      · exact h.1 hin

theorem mem_set (h : (d.map Prod.fst).Nodup) (hmem : e' ∈ set e d) :
    e' = e ∨ e'.1 ≠ e.1 ∧ e' ∈ d := by
  induction d with
  | nil => exact .inl (List.mem_singleton.mp hmem)
  | cons a d ih =>
    rw [List.map_cons, List.nodup_cons] at h
    rw [set] at hmem
    split_ifs at hmem with hk
    · rcases List.mem_cons.mp hmem with rfl | hin
      · exact .inl rfl
      · -- the other keys differ from the one that is set
        refine .inr ⟨fun heq => h.1 ?_, List.mem_cons_of_mem a hin⟩
        rw [hk, ← heq]
        exact List.mem_map_of_mem hin
    · rcases List.mem_cons.mp hmem with rfl | hin
      · exact .inr ⟨hk, List.mem_cons_self⟩
      · exact (ih h.2 hin).imp_right fun hd => ⟨hd.1, List.mem_cons_of_mem a hd.2⟩

omit [DecidableEq α] in
theorem trim_suffix (max : ℕ) (d : List (α × β)) : trim max d <:+ d := List.drop_suffix ..

omit [DecidableEq α] in
theorem length_trim_le (max : ℕ) (d : List (α × β)) : (trim max d).length ≤ max := by
  rw [trim, List.length_drop]
  omega

theorem nodup_put (h : (d.map Prod.fst).Nodup) : ((put max d e).map Prod.fst).Nodup :=
  (nodup_set h).sublist ((trim_suffix max _).sublist.map Prod.fst)

omit [DecidableEq α] in
/-- What a look-up finds is an entry. -/
theorem mem_of_lookup [BEq α] [LawfulBEq α] {k : α} {v : β} (h : d.lookup k = some v) :
    (k, v) ∈ d := by
  obtain ⟨earlier, later, rfl, -⟩ := List.lookup_eq_some_iff.mp h
  exact List.mem_append_right _ List.mem_cons_self

/-- **It never has more entries than it may**, and no key twice. -/
theorem bounded_foldl_put (max : ℕ) (es : List (α × β)) :
    (es.foldl (put max) []).length ≤ max ∧
      ((es.foldl (put max) []).map Prod.fst).Nodup := by
  induction es using List.reverseRecOn with
  | nil => exact ⟨Nat.zero_le max, List.nodup_nil⟩
  | append_singleton es e ih =>
    rw [List.foldl_append]
    exact ⟨length_trim_le max _, nodup_put ih.2⟩

/-- **What is found is the last value of its key.** -/
theorem mem_foldl_put (h : e ∈ es.foldl (put max) []) :
    ∃ earlier later, es = earlier ++ e :: later ∧ e.1 ∉ later.map Prod.fst := by
  induction es using List.reverseRecOn with
  | nil => exact absurd h List.not_mem_nil
  | append_singleton es a ih =>
    rw [List.foldl_append] at h
    have hset := (trim_suffix max _).subset h
    rcases mem_set (bounded_foldl_put max es).2 hset with rfl | ⟨hne, hin⟩
    · exact ⟨es, [], rfl, List.not_mem_nil⟩
    · obtain ⟨earlier, later, rfl, hlast⟩ := ih hin
      refine ⟨earlier, later ++ [a], by simp, ?_⟩
      rw [List.map_append, List.mem_append, not_or]
      exact ⟨hlast, fun hmem => hne (List.mem_singleton.mp hmem)⟩

end Fifo

end OtamanBridge
