import Mathlib.Data.List.AList

/-!
# Dictionaries

A `dict` is an association list with distinct keys, which Mathlib has. What is added here
is the comprehension that keeps some of the entries, and what a look-up finds in it.
-/

namespace OtamanBridge

namespace Dict

variable {α β : Type*} [DecidableEq α]

/-- `{k: v for k, v in d.items() if p(v)}`. -/
def keep (p : β → Bool) (d : AList fun _ : α => β) : AList fun _ : α => β where
  entries := d.entries.filter fun e => p e.2
  nodupKeys := d.nodupKeys.sublist List.filter_sublist

variable {p : β → Bool} {d : AList fun _ : α => β} {k : α} {v : β}

/-- **What a look-up finds in what is kept**: what it finds in the whole, if it is kept. -/
theorem lookup_keep : (keep p d).lookup k = (d.lookup k).filter p := by
  refine Option.ext fun v => ?_
  rw [← Option.mem_def, AList.mem_lookup_iff, Option.filter_eq_some_iff, ← Option.mem_def,
    AList.mem_lookup_iff]
  exact List.mem_filter

theorem lookup_keep_eq_some : (keep p d).lookup k = some v ↔ d.lookup k = some v ∧ p v := by
  rw [lookup_keep, Option.filter_eq_some_iff]

/-- What is found in a part is found in the whole. -/
theorem lookup_of_erase {k' : α} (h : (d.erase k').lookup k = some v) : d.lookup k = some v := by
  rcases eq_or_ne k k' with rfl | hne
  · rw [AList.lookup_erase] at h
    exact absurd h (by simp)
  · rwa [AList.lookup_erase_ne hne] at h

/-- What is found after an insertion was inserted, or was there. -/
theorem lookup_of_insert {k' : α} {v' : β} (h : (d.insert k' v').lookup k = some v) :
    k = k' ∧ v = v' ∨ k ≠ k' ∧ d.lookup k = some v := by
  rcases eq_or_ne k k' with rfl | hne
  · rw [AList.lookup_insert] at h
    exact .inl ⟨rfl, (Option.some.inj h).symm⟩
  · rw [AList.lookup_insert_ne hne] at h
    exact .inr ⟨hne, h⟩

/-- An empty selection means that no value passes the test. -/
theorem not_of_lookup_of_keep_eq_nil (h : (keep p d).entries = []) (hv : d.lookup k = some v) :
    ¬p v := by
  intro hp
  have hin : (keep p d).lookup k = some v := lookup_keep_eq_some.mpr ⟨hv, hp⟩
  have hmem := AList.mem_lookup_iff.mp (Option.mem_def.mpr hin)
  rw [h] at hmem
  exact absurd hmem List.not_mem_nil

/-! ### The values of a dictionary, one by one -/

/-- The value of an entry is changed, if it is the one of this key. -/
def modifyEntry (k : α) (f : β → β) (e : (_ : α) × β) : (_ : α) × β :=
  if e.1 = k then ⟨e.1, f e.2⟩ else e

theorem keys_map_modifyEntry (f : β → β) (es : List ((_ : α) × β)) :
    (es.map (modifyEntry k f)).map Sigma.fst = es.map Sigma.fst := by
  rw [List.map_map]
  refine List.map_congr_left fun e _ => ?_
  rw [Function.comp_apply, modifyEntry]
  split_ifs <;> rfl

/-- The value of a key is changed, where it is. -/
def modify (k : α) (f : β → β) (d : AList fun _ : α => β) : AList fun _ : α => β where
  entries := d.entries.map (modifyEntry k f)
  nodupKeys := by
    rw [List.NodupKeys, List.keys, keys_map_modifyEntry]
    exact d.nodupKeys

theorem keys_modify (f : β → β) : (modify k f d).keys = d.keys :=
  keys_map_modifyEntry f d.entries

theorem lookup_modify (f : β → β) : (modify k f d).lookup k = (d.lookup k).map f := by
  refine Option.ext fun v => ?_
  rw [← Option.mem_def, AList.mem_lookup_iff, Option.map_eq_some_iff]
  constructor
  · intro h
    obtain ⟨⟨k', v'⟩, he, heq⟩ := List.mem_map.mp h
    rw [modifyEntry] at heq
    split_ifs at heq with hk
    · obtain ⟨rfl, rfl⟩ : k' = k ∧ f v' = v := by simpa using heq
      exact ⟨v', AList.mem_lookup_iff.mpr he, rfl⟩
    · obtain ⟨rfl, rfl⟩ : k' = k ∧ v' = v := by simpa using heq
      exact absurd rfl hk
  · rintro ⟨v', hv', rfl⟩
    exact List.mem_map.mpr ⟨⟨k, v'⟩, AList.mem_lookup_iff.mp hv', if_pos rfl⟩

theorem lookup_modify_ne {k' : α} (f : β → β) (h : k' ≠ k) :
    (modify k f d).lookup k' = d.lookup k' := by
  refine Option.ext fun v => ?_
  rw [← Option.mem_def, AList.mem_lookup_iff, ← Option.mem_def, AList.mem_lookup_iff]
  constructor
  · intro hv
    obtain ⟨⟨k'', v'⟩, he, heq⟩ := List.mem_map.mp hv
    rw [modifyEntry] at heq
    split_ifs at heq with hk
    · obtain ⟨rfl, -⟩ : k'' = k' ∧ f v' = v := by simpa using heq
      exact absurd hk h
    · rwa [← heq]
  · intro hv
    exact List.mem_map.mpr ⟨⟨k', v⟩, hv, if_neg h⟩

/-- What is found after a change was there, changed or not. -/
theorem lookup_of_modify {k' : α} {f : β → β} (h : (modify k f d).lookup k' = some v) :
    ∃ u, d.lookup k' = some u ∧ (k' = k ∧ v = f u ∨ k' ≠ k ∧ v = u) := by
  rcases eq_or_ne k' k with rfl | hne
  · rw [lookup_modify, Option.map_eq_some_iff] at h
    obtain ⟨u, hu, rfl⟩ := h
    exact ⟨u, hu, .inl ⟨rfl, rfl⟩⟩
  · rw [lookup_modify_ne f hne] at h
    exact ⟨v, h, .inr ⟨hne, rfl⟩⟩

/-- Every value is changed. -/
def map (f : β → β) (d : AList fun _ : α => β) : AList fun _ : α => β where
  entries := d.entries.map fun e => ⟨e.1, f e.2⟩
  nodupKeys := by
    rw [List.NodupKeys, List.keys, List.map_map]
    exact d.nodupKeys

theorem lookup_map (f : β → β) : (map f d).lookup k = (d.lookup k).map f := by
  refine Option.ext fun v => ?_
  rw [← Option.mem_def, AList.mem_lookup_iff, Option.map_eq_some_iff]
  constructor
  · intro h
    obtain ⟨⟨k', v'⟩, he, heq⟩ := List.mem_map.mp h
    obtain ⟨rfl, rfl⟩ : k' = k ∧ f v' = v := by simpa using heq
    exact ⟨v', AList.mem_lookup_iff.mpr he, rfl⟩
  · rintro ⟨v', hv', rfl⟩
    exact List.mem_map.mpr ⟨⟨k, v'⟩, AList.mem_lookup_iff.mp hv', rfl⟩

/-- **Two dictionaries have the same of these keys, and related values.** -/
def Rel (P : α → Prop) (R : β → β → Prop) (d d' : AList fun _ : α => β) : Prop :=
  ∀ k, P k → Option.Rel R (d.lookup k) (d'.lookup k)

namespace Rel

variable {P : α → Prop} {R : β → β → Prop} {d d' d'' : AList fun _ : α => β}

theorem refl (hR : ∀ v, R v v) (d : AList fun _ : α => β) : Rel P R d d := fun k _ => by
  rcases d.lookup k with _ | v
  · exact .none
  · exact .some (hR v)

/-- Fewer keys. -/
theorem mono {Q : α → Prop} (h : Rel P R d d') (hQ : ∀ k, Q k → P k) : Rel Q R d d' :=
  fun k hk => h k (hQ k hk)

/-- A key with a value has one in the other. -/
theorem lookup_eq_some (h : Rel P R d d') (hk : P k) {v : β} (hv : d'.lookup k = some v) :
    ∃ u, d.lookup k = some u ∧ R u v := by
  have hrel := h k hk
  rw [hv] at hrel
  rcases hu : d.lookup k with _ | u
  · rw [hu] at hrel
    exact absurd hrel nofun
  · rw [hu] at hrel
    cases hrel with
    | some huv => exact ⟨u, rfl, huv⟩

/-- A key without a value has none in the other. -/
theorem lookup_eq_none (h : Rel P R d d') (hk : P k) (hv : d'.lookup k = none) :
    d.lookup k = none := by
  have hrel := h k hk
  rw [hv] at hrel
  rcases hu : d.lookup k with _ | u
  · rfl
  · rw [hu] at hrel
    exact absurd hrel nofun

theorem trans (hR : ∀ {u v w}, R u v → R v w → R u w) (h : Rel P R d d') (h' : Rel P R d' d'') :
    Rel P R d d'' := fun k hk => by
  rcases hw : d''.lookup k with _ | w
  · rw [h.lookup_eq_none hk (h'.lookup_eq_none hk hw)]
    exact .none
  · obtain ⟨v, hv, hvw⟩ := h'.lookup_eq_some hk hw
    obtain ⟨u, hu, huv⟩ := h.lookup_eq_some hk hv
    rw [hu]
    exact .some (hR huv hvw)

/-- The values of one key are changed, and are related again. -/
theorem modify (h : Rel P R d d') {f g : β → β} (k : α) (hfg : ∀ {u v}, R u v → R (f u) (g v)) :
    Rel P R (Dict.modify k f d) (Dict.modify k g d') := fun k' hk' => by
  rcases eq_or_ne k' k with rfl | hne
  · rw [lookup_modify, lookup_modify]
    rcases hv : d'.lookup k' with _ | v
    · rw [h.lookup_eq_none hk' hv]
      exact .none
    · obtain ⟨u, hu, huv⟩ := h.lookup_eq_some hk' hv
      rw [hu]
      exact .some (hfg huv)
  · rw [lookup_modify_ne f hne, lookup_modify_ne g hne]
    exact h k' hk'

/-- A value is changed, and is related to what it was. -/
theorem modify_left (hR : ∀ v, R v v) {f : β → β} (k : α) (hf : ∀ v, R (f v) v) :
    Rel P R (Dict.modify k f d) d := fun k' hk' => by
  rcases eq_or_ne k' k with rfl | hne
  · rw [lookup_modify]
    rcases d.lookup k' with _ | v
    · exact .none
    · exact .some (hf v)
  · rw [lookup_modify_ne f hne]
    exact refl hR d k' hk'

/-- A key is taken out of both. -/
theorem erase (h : Rel P R d d') (k : α) : Rel P R (d.erase k) (d'.erase k) := fun k' hk' => by
  rcases eq_or_ne k' k with rfl | hne
  · rw [AList.lookup_erase, AList.lookup_erase]
    exact .none
  · rw [AList.lookup_erase_ne hne, AList.lookup_erase_ne hne]
    exact h k' hk'

/-- The other keys do not matter. -/
theorem of_lookup {e e' : AList fun _ : α => β} (h : Rel P R d d')
    (he : ∀ k, P k → e.lookup k = d.lookup k) (he' : ∀ k, P k → e'.lookup k = d'.lookup k) :
    Rel P R e e' := fun k hk => by
  rw [he k hk, he' k hk]
  exact h k hk

end Rel

end Dict

end OtamanBridge
