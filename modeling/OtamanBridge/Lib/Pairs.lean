import Mathlib.Data.List.Basic
import Mathlib.Data.List.Nodup

/-!
# A stream of pairs, and what is kept of it

Two dictionaries may be filled from a stream of pairs: one keeps for each first component the
second one that came last, the other collects for each second component the first ones that
came with it. The two are inverse to each other, without repetition, exactly if no first
component comes twice (`OtamanBridge.Pairs.inverse_iff`).

The pairs may be named by records, of which each may name a pair of one kind and a pair of
another. `OtamanBridge.Pairs.sameSource_iff` says when the two values that are kept for a first
component are of one record.
-/

namespace OtamanBridge

namespace Pairs

variable {ρ α β γ : Type*}

/-! ### The two dictionaries -/

section

variable [DecidableEq α] {es : List (α × β)} {a a' : α} {b : β}

/-- What is kept for `a` by assignments in this order. -/
def valueOf (es : List (α × β)) (a : α) : Option β :=
  es.reverse.findSome? fun e => if e.1 = a then some e.2 else none

@[simp]
theorem valueOf_nil (a : α) : valueOf ([] : List (α × β)) a = none := rfl

/-- One more assignment. -/
theorem valueOf_concat :
    valueOf (es ++ [(a, b)]) a' = if a = a' then some b else valueOf es a' := by
  rw [valueOf, List.reverse_concat, List.findSome?_cons]
  by_cases h : a = a'
  · simp only [if_pos h]
  · simp only [if_neg h]
    rfl

theorem mem_of_valueOf (h : valueOf es a = some b) : (a, b) ∈ es := by
  obtain ⟨e, he, heq⟩ := List.exists_of_findSome?_eq_some h
  split_ifs at heq with hfst
  obtain rfl := Option.some.inj heq
  rw [← hfst]
  exact List.mem_reverse.mp he

/-- Something is kept for what comes. -/
theorem isSome_valueOf_iff : (valueOf es a).isSome ↔ ∃ b, (a, b) ∈ es := by
  constructor
  · intro h
    obtain ⟨b, hb⟩ := Option.isSome_iff_exists.mp h
    exact ⟨b, mem_of_valueOf hb⟩
  · rintro ⟨b, hb⟩
    rw [valueOf, List.findSome?_isSome_iff]
    exact ⟨(a, b), List.mem_reverse.mpr hb, by simp⟩

/-- If no first component comes twice, all that comes is kept. -/
theorem valueOf_eq_some_iff (hnodup : (es.map Prod.fst).Nodup) :
    valueOf es a = some b ↔ (a, b) ∈ es := by
  refine ⟨mem_of_valueOf, fun hmem => ?_⟩
  obtain ⟨b', hb'⟩ := Option.isSome_iff_exists.mp (isSome_valueOf_iff.mpr ⟨b, hmem⟩)
  have heq := List.inj_on_of_nodup_map hnodup hmem (mem_of_valueOf hb') rfl
  rw [hb', (Prod.mk.inj heq).2]

end

section

variable [DecidableEq β] {es : List (α × β)} {a : α} {b b' : β}

/-- What is collected for `b` by appending in this order. -/
def keysOf (es : List (α × β)) (b : β) : List α := (es.filter (·.2 = b)).map Prod.fst

@[simp]
theorem keysOf_nil (b : β) : keysOf ([] : List (α × β)) b = [] := rfl

/-- One more pair. -/
theorem keysOf_concat :
    keysOf (es ++ [(a, b)]) b' = if b = b' then keysOf es b' ++ [a] else keysOf es b' := by
  rw [keysOf, List.filter_append, List.map_append]
  split_ifs with h
  · simp [keysOf, h]
  · simp [keysOf, h]

theorem mem_keysOf : a ∈ keysOf es b ↔ (a, b) ∈ es := by
  simp [keysOf]

end

/-- **When the two dictionaries are inverse to each other**, and nothing is collected twice. -/
theorem inverse_iff [DecidableEq α] [DecidableEq β] {es : List (α × β)} :
    ((∀ a b, a ∈ keysOf es b ↔ valueOf es a = some b) ∧ ∀ b, (keysOf es b).Nodup) ↔
      (es.map Prod.fst).Nodup := by
  constructor
  · rintro ⟨hinverse, honce⟩
    rw [List.Nodup, List.pairwise_map, List.pairwise_iff_forall_sublist]
    rintro ⟨a, b⟩ ⟨a', b'⟩ hsub heq
    obtain rfl : a = a' := heq
    -- Both are kept for `a`, so they are one pair, which is then collected twice.
    have hb := (hinverse a b).mp (mem_keysOf.mpr (hsub.subset (by simp)))
    have hb' := (hinverse a b').mp (mem_keysOf.mpr (hsub.subset (by simp)))
    obtain rfl : b = b' := Option.some.inj (hb.symm.trans hb')
    have htwice : [a, a].Sublist (keysOf es b) := by
      have hfilter := (hsub.filter (·.2 = b)).map Prod.fst
      rwa [List.filter_eq_self.mpr (by simp)] at hfilter
    exact absurd (htwice.nodup (honce b)) (by simp)
  · intro hnodup
    refine ⟨fun a b => mem_keysOf.trans (valueOf_eq_some_iff hnodup).symm, fun b => ?_⟩
    exact hnodup.sublist (List.filter_sublist.map Prod.fst)

/-! ### Records that name pairs -/

/-- The record names a pair with this first component. -/
def Names (f : ρ → Option (α × β)) (a : α) (r : ρ) : Prop := ∃ b, f r = some (a, b)

/-- **The last record that names one**: what is before it, it, and what is after it. -/
structure LastSource (f : ρ → Option (α × β)) (a : α) (records before : List ρ) (r : ρ)
    (after : List ρ) : Prop where
  split : records = before ++ r :: after
  names : Names f a r
  last : ∀ r' ∈ after, ¬Names f a r'

variable {f : ρ → Option (α × β)} {g : ρ → Option (α × γ)} {records before after : List ρ}
  {r : ρ} {a : α}

/-- There is a last one, if there is one. -/
theorem exists_lastSource (h : ∃ r ∈ records, Names f a r) :
    ∃ before r after, LastSource f a records before r after := by
  classical
  induction records with
  | nil => exact absurd h (by simp)
  | cons x records ih =>
    by_cases hrest : ∃ r ∈ records, Names f a r
    · obtain ⟨before, r, after, hsplit, hnames, hlast⟩ := ih hrest
      exact ⟨x :: before, r, after, by rw [hsplit, List.cons_append], hnames, hlast⟩
    · obtain ⟨r, hr, hnames⟩ := h
      rcases List.mem_cons.mp hr with rfl | hr
      · exact ⟨[], r, records, rfl, hnames, fun r' hr' hno => hrest ⟨r', hr', hno⟩⟩
      · exact absurd ⟨r, hr, hnames⟩ hrest

theorem names_iff_mem [DecidableEq α] : (valueOf (records.filterMap f) a).isSome ↔
    ∃ r ∈ records, Names f a r := by
  rw [isSome_valueOf_iff]
  constructor
  · rintro ⟨b, hb⟩
    obtain ⟨r, hr, heq⟩ := List.mem_filterMap.mp hb
    exact ⟨r, hr, b, heq⟩
  · rintro ⟨r, hr, b, heq⟩
    exact ⟨b, List.mem_filterMap.mpr ⟨r, hr, heq⟩⟩

/-- **What is kept is what the last record names.** -/
theorem LastSource.valueOf [DecidableEq α] (h : LastSource f a records before r after) {b : β}
    (hb : f r = some (a, b)) : valueOf (records.filterMap f) a = some b := by
  have hafter : ∀ r' ∈ after, ∀ e, f r' = some e → e.1 ≠ a := by
    rintro r' hr' ⟨a', b'⟩ heq rfl
    exact h.last r' hr' ⟨b', heq⟩
  have hnone : (after.filterMap f).reverse.findSome?
      (fun e => if e.1 = a then some e.2 else none) = none := by
    rw [List.findSome?_eq_none_iff]
    intro e he
    obtain ⟨r', hr', heq⟩ := List.mem_filterMap.mp (List.mem_reverse.mp he)
    exact if_neg (hafter r' hr' e heq)
  rw [h.split, List.filterMap_append, List.filterMap_cons_some hb, Pairs.valueOf,
    List.reverse_append, List.reverse_cons, List.append_assoc, List.findSome?_append, hnone]
  simp

/-- The value that is kept is that of the last record that names one. -/
theorem valueOf_filterMap_eq_some_iff [DecidableEq α] {b : β} :
    valueOf (records.filterMap f) a = some b ↔
      ∃ before r after, LastSource f a records before r after ∧ f r = some (a, b) := by
  constructor
  · intro h
    obtain ⟨before, r, after, hlast⟩ :=
      exists_lastSource (names_iff_mem.mp (Option.isSome_iff_exists.mpr ⟨b, h⟩))
    obtain ⟨b', hb'⟩ := hlast.names
    rw [hlast.valueOf hb'] at h
    exact ⟨before, r, after, hlast, by rw [hb', Option.some.inj h]⟩
  · rintro ⟨before, r, after, hlast, hb⟩
    exact hlast.valueOf hb

/-- Where no first component comes twice, no two records name the same. -/
theorem not_names_of_nodup (hnodup : ((records.filterMap f).map Prod.fst).Nodup)
    (h : records = before ++ r :: after) (hr : Names f a r) :
    ∀ r' ∈ after, ¬Names f a r' := by
  rintro r' hr' ⟨b', hb'⟩
  obtain ⟨b, hb⟩ := hr
  rw [List.Nodup, List.pairwise_map, List.pairwise_filterMap, h] at hnodup
  have htail := (List.pairwise_append.mp hnodup).2.1
  exact (List.pairwise_cons.mp htail).1 r' hr' _ hb _ hb' rfl

/-- There the records that name one are one. -/
theorem eq_of_names (hnodup : ((records.filterMap f).map Prod.fst).Nodup)
    {before' after' : List ρ} {r' : ρ} (h : records = before ++ r :: after) (hr : Names f a r)
    (h' : records = before' ++ r' :: after') (hr' : Names f a r') :
    before = before' ∧ r = r' ∧ after = after' := by
  rcases List.append_eq_append_iff.mp (h.symm.trans h') with ⟨between, hbefore, heq⟩ |
    ⟨between, hbefore, heq⟩
  · rcases between with _ | ⟨x, between⟩
    · obtain ⟨rfl, rfl⟩ := List.cons.inj heq
      exact ⟨by simpa using hbefore.symm, rfl, rfl⟩
    · refine absurd hr' (not_names_of_nodup hnodup h hr r' ?_)
      rw [(List.cons.inj heq).2]
      simp
  · rcases between with _ | ⟨x, between⟩
    · obtain ⟨rfl, rfl⟩ := List.cons.inj heq
      exact ⟨by simpa using hbefore, rfl, rfl⟩
    · refine absurd hr (not_names_of_nodup hnodup h' hr' r ?_)
      rw [(List.cons.inj heq).2]
      simp

/-- One record is the last source of both values. -/
def SameSource (f : ρ → Option (α × β)) (g : ρ → Option (α × γ)) (records : List ρ) (a : α) :
    Prop :=
  ∃ before r after, LastSource f a records before r after ∧ LastSource g a records before r after

/-- **When the two values are of one record**, where no record but one names the first: no
record after it names the second, and one before it only if it names it itself. -/
theorem sameSource_iff (hnodup : ((records.filterMap f).map Prod.fst).Nodup) :
    (∀ a, (∃ r ∈ records, Names f a r) → (∃ r ∈ records, Names g a r) →
      SameSource f g records a) ↔
      ∀ before r after a, records = before ++ r :: after → Names f a r →
        (∀ r' ∈ after, ¬Names g a r') ∧ ((∃ r' ∈ before, Names g a r') → Names g a r) := by
  constructor
  · intro h before r after a hsplit hr
    have hmem : r ∈ records := by simp [hsplit]
    have hsame : (∃ r' ∈ records, Names g a r') → (∀ r' ∈ after, ¬Names g a r') ∧ Names g a r := by
      intro hg
      obtain ⟨before', r', after', hf', hg'⟩ := h a ⟨r, hmem, hr⟩ hg
      obtain ⟨rfl, rfl, rfl⟩ := eq_of_names hnodup hsplit hr hf'.split hf'.names
      exact ⟨hg'.last, hg'.names⟩
    constructor
    · intro r' hr' hg
      exact (hsame ⟨r', by simp [hsplit, hr'], hg⟩).1 r' hr' hg
    · rintro ⟨r', hr', hg⟩
      exact (hsame ⟨r', by simp [hsplit, hr'], hg⟩).2
  · rintro h a ⟨r, hmem, hr⟩ ⟨r', hmem', hr'⟩
    obtain ⟨before, after, hsplit⟩ := List.append_of_mem hmem
    obtain ⟨hafter, hbefore⟩ := h before r after a hsplit hr
    refine ⟨before, r, after, ⟨hsplit, hr, not_names_of_nodup hnodup hsplit hr⟩,
      hsplit, ?_, hafter⟩
    rw [hsplit, List.mem_append, List.mem_cons] at hmem'
    rcases hmem' with hin | rfl | hin
    · exact hbefore ⟨r', hin, hr'⟩
    · exact hr'
    · exact absurd hr' (hafter r' hin)

end Pairs

end OtamanBridge
