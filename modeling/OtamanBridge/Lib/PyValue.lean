import OtamanBridge.Lib.PyText

/-!
# Values as Python handles them

What an untyped value does where the code does not check its type: whether it is a mapping,
whether it can be gone through, searched, cut or hashed, and whether `json.dumps` takes it.
An operation that raises on some values has a test beside it that says on which it does not.
-/

namespace OtamanBridge

namespace Py

namespace Value

/-! ### What a value is -/

/-- `isinstance(v, dict)`. -/
def isDict : Value → Bool
  | .dict _ => true
  | _ => false

/-- `v == t`. -/
def isText (t : Text) : Value → Bool
  | .str s => s = t
  | _ => false

/-- `v is None`. -/
def isNone : Value → Bool
  | .none => true
  | _ => false

/-- `hash(v)` does not raise. -/
def hashable : Value → Bool
  | .list _ => false
  | .dict _ => false
  | _ => true

/-! ### Mappings -/

/-- `v.get(key)`, of a mapping. -/
def field (v : Value) (key : String) : Value := (v.get key).getD .none

/-- `v.get(key) or default`, of a mapping. -/
def fieldOr (v : Value) (key : String) (default : Value) : Value :=
  if (v.field key).truthy then v.field key else default

/-- A `dict` with string keys. -/
def ofFields (items : List (String × Value)) : Value :=
  .dict (items.map fun kv => (.str (lit kv.1), kv.2))

/-- A value that is no mapping has no key. -/
theorem get_of_not_isDict {v : Value} (h : ¬v.isDict) (key : String) : v.get key = Option.none := by
  cases v <;> first | rfl | exact absurd rfl h

@[simp]
theorem get_ofFields_nil (key : String) : (ofFields []).get key = Option.none := rfl

/-- The fields are looked through in their order. -/
theorem get_ofFields_cons (name : String) (v : Value) (items : List (String × Value))
    (key : String) : (ofFields ((name, v) :: items)).get key =
      if name = key then some v else (ofFields items).get key := by
  simp only [ofFields, get, List.map_cons, List.findSome?_cons]
  by_cases hkey : name = key
  · rw [if_pos hkey, hkey, if_pos rfl]
  · rw [if_neg hkey, if_neg fun h => hkey (lit_injective h)]

/-! ### What is gone through, searched or cut -/

/-- Neither `for x in v` nor `t in v` raises. -/
def iterable : Value → Bool
  | .str _ => true
  | .list _ => true
  | .dict _ => true
  | _ => false

/-- What is gone through. -/
def elements : Value → List Value
  | .str t => t.map fun c => .str [c]
  | .list items => items
  | .dict items => items.map Prod.fst
  | _ => []

/-- `for x in v`. -/
def iter (v : Value) : Except Unit (List Value) :=
  if v.iterable then .ok v.elements else .error ()

/-- `t in v`. -/
def contains (t : Text) : Value → Bool
  | .str s => t <:+: s
  | .list items => items.any (isText t)
  | .dict items => items.any fun kv => isText t kv.1
  | _ => false

/-- `v[:n]`. -/
def sliced (n : ℕ) : Value → Except Unit Value
  | .str t => .ok (.str (t.take n))
  | .list items => .ok (.list (items.take n))
  | _ => .error ()

/-- What can be gone through and is no mapping can be cut. -/
theorem exists_sliced_iff {v : Value} (hiter : v.iterable) (n : ℕ) :
    (∃ cut, v.sliced n = .ok cut) ↔ ¬v.isDict := by
  cases v <;> simp [iterable, sliced, isDict] at hiter ⊢

/-! ### JSON -/

/-- A key that `json.dumps` takes. -/
def isKey : Value → Bool
  | .list _ => false
  | .dict _ => false
  | .date .. => false
  | _ => true

mutual

/-- `json.dumps` takes the value. -/
def isJson : Value → Bool
  | .date .. => false
  | .list items => allJson items
  | .dict items => fieldsJson items
  | _ => true

/-- And each of these. -/
def allJson : List Value → Bool
  | [] => true
  | v :: items => isJson v && allJson items

/-- And each of these fields. -/
def fieldsJson : List (Value × Value) → Bool
  | [] => true
  | (k, v) :: items => isKey k && isJson v && fieldsJson items

end

theorem allJson_iff {items : List Value} : allJson items ↔ ∀ v ∈ items, v.isJson := by
  induction items with
  | nil => simp [allJson]
  | cons v items ih => rw [allJson, Bool.and_eq_true, List.forall_mem_cons, ih]

theorem fieldsJson_iff {items : List (Value × Value)} :
    fieldsJson items ↔ ∀ kv ∈ items, kv.1.isKey ∧ kv.2.isJson := by
  induction items with
  | nil => simp [fieldsJson]
  | cons kv items ih =>
    obtain ⟨k, v⟩ := kv
    rw [fieldsJson, Bool.and_eq_true, Bool.and_eq_true, List.forall_mem_cons, ih]

/-- What `json.dumps` takes has fields that it takes. -/
theorem isJson_of_get {v x : Value} (h : v.isJson) {key : String} (hx : v.get key = some x) :
    x.isJson := by
  cases v with
  | dict items =>
    obtain ⟨⟨k, y⟩, hmem, hy⟩ := List.exists_of_findSome?_eq_some hx
    have hfield := (fieldsJson_iff.mp h _ hmem).2
    cases k with
    | str t =>
      dsimp only at hy
      split_ifs at hy
      rw [← Option.some.inj hy]
      exact hfield
    | _ => exact absurd hy (by simp)
  | _ => exact absurd hx (by simp [get])

/-- And so has what is put together of such. -/
theorem isJson_ofFields {items : List (String × Value)} :
    (ofFields items).isJson ↔ ∀ kv ∈ items, kv.2.isJson := by
  unfold ofFields
  rw [isJson, fieldsJson_iff]
  constructor
  · intro h kv hkv
    exact (h _ (List.mem_map_of_mem hkv)).2
  · intro h _ hmem
    obtain ⟨kv, hkv, rfl⟩ := List.mem_map.mp hmem
    exact ⟨rfl, h kv hkv⟩

end Value

end Py

end OtamanBridge
