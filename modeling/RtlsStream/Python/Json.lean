/-
  Python/Json.lean --- dictionaries and the values `json` reads and writes.

  A `dict` keeps its insertion order: setting a key that is present replaces the
  value in place, a new key goes to the end.  `Json` is the closed set of Python
  values that `json.loads` returns and `json.dumps` accepts; `bool` is a
  constructor of its own although Python counts it among the integers, because
  the program's `isinstance` tests and the database tell them apart.
-/
import RtlsStream.Python.Number

set_option autoImplicit false

namespace RtlsStream.Python

open RtlsStream.Foundation

/-- A `dict` with string keys, in insertion order. -/
abbrev Dict (α : Type) := List (Str × α)

namespace Dict

variable {α : Type}

/-- `d.get(key)` -/
def get? (d : Dict α) (key : Str) : Option α := (d.find? (·.1 = key)).map (·.2)

/-- `key in d` -/
def contains (d : Dict α) (key : Str) : Bool := (d.get? key).isSome

/-- `d[key] = value` -/
def set : Dict α → Str → α → Dict α
  | [], key, value => [(key, value)]
  | (k, v) :: rest, key, value =>
    if k = key then (k, value) :: rest else (k, v) :: set rest key value

/-- `d.update(other)` -/
def update (d other : Dict α) : Dict α := other.foldl (fun d m => d.set m.1 m.2) d

/-- `d.pop(key, None)` -/
def pop : Dict α → Str → Dict α
  | [], _ => []
  | (k, v) :: rest, key => if k = key then pop rest key else (k, v) :: pop rest key

/-- `d[key]` -/
def item (d : Dict α) (key : Str) : Except PyError α :=
  match d.get? key with
  | some v => .ok v
  | none => .error (.keyError key)

theorem item_eq_ok {d : Dict α} {key : Str} {v : α} : d.item key = .ok v ↔ d.get? key = some v := by
  unfold item
  cases d.get? key <;> simp

theorem contains_iff {d : Dict α} {key : Str} : d.contains key ↔ ∃ v, d.get? key = some v := by
  unfold contains
  exact Option.isSome_iff_exists

@[simp] theorem get?_nil (key : Str) : get? ([] : Dict α) key = none := rfl

theorem get?_cons (k key : Str) (v : α) (d : Dict α) :
    get? ((k, v) :: d) key = if k = key then some v else get? d key := by
  by_cases h : k = key <;> simp [get?, h]

theorem get?_set (d : Dict α) (k key : Str) (v : α) :
    (d.set k v).get? key = if k = key then some v else d.get? key := by
  induction d with
  | nil => simp [set, get?_cons]
  | cons head rest ih =>
    obtain ⟨k', v'⟩ := head
    by_cases hk : k' = k
    · subst hk
      simp only [set, if_pos, get?_cons]
      split <;> rfl
    · by_cases hkey : k' = key
      · subst hkey
        simp [set, hk, get?_cons, Ne.symm hk]
      · simp [set, hk, get?_cons, hkey, ih]

theorem get?_pop (d : Dict α) (k key : Str) :
    (d.pop k).get? key = if k = key then none else d.get? key := by
  induction d with
  | nil => simp [pop]
  | cons head rest ih =>
    obtain ⟨k', v'⟩ := head
    by_cases hk : k' = k
    · subst hk
      simp only [pop, if_pos, get?_cons, ih]
      split <;> simp_all
    · by_cases hkey : k' = key
      · subst hkey
        simp [pop, hk, get?_cons, Ne.symm hk]
      · simp [pop, hk, get?_cons, hkey, ih]

theorem pop_eq_filter (d : Dict α) (k : Str) : d.pop k = d.filter (·.1 ≠ k) := by
  induction d with
  | nil => rfl
  | cons head rest ih =>
    obtain ⟨k', v⟩ := head
    by_cases hk : k' = k <;> simp [pop, hk, ih]

/-- The keys of a dictionary are distinct. -/
def Distinct (d : Dict α) : Prop := (d.map (·.1)).Nodup

theorem mem_keys_set {d : Dict α} {k key : Str} {v : α}
    (h : key ∈ (d.set k v).map (·.1)) : key = k ∨ key ∈ d.map (·.1) := by
  induction d with
  | nil => simpa [set] using h
  | cons head rest ih =>
    obtain ⟨k', v'⟩ := head
    by_cases hk : k' = k
    · simp only [set, if_pos hk, List.map_cons, List.mem_cons] at h ⊢
      exact Or.inr h
    · simp only [set, if_neg hk, List.map_cons, List.mem_cons] at h ⊢
      rcases h with h | h
      · exact Or.inr (Or.inl h)
      · exact (ih h).imp id Or.inr

/-- The items of a dictionary whose keys are distinct replace what was there. -/
theorem get?_update {d other : Dict α} (hkeys : other.Distinct) {key : Str} {v : α} :
    (d.update other).get? key = some v ↔
      (key, v) ∈ other ∨ key ∉ other.map (·.1) ∧ d.get? key = some v := by
  induction other generalizing d with
  | nil => simp [update]
  | cons head rest ih =>
    obtain ⟨k, w⟩ := head
    simp only [Distinct, List.map_cons, List.nodup_cons] at hkeys
    have hrest : Dict.update d ((k, w) :: rest) = (d.set k w).update rest := rfl
    rw [hrest, ih hkeys.2, get?_set]
    by_cases hk : k = key
    · subst hk
      have hnone : (k, v) ∉ rest := fun hmem => hkeys.1 (List.mem_map_of_mem hmem)
      simp [hkeys.1, hnone, eq_comm]
    · simp [hk, Ne.symm hk]

/-- Setting a key keeps the keys distinct. -/
theorem Distinct.set {d : Dict α} (h : d.Distinct) (k : Str) (v : α) :
    (d.set k v).Distinct := by
  induction d with
  | nil => simp [Dict.set, Distinct]
  | cons head rest ih =>
    obtain ⟨k', v'⟩ := head
    simp only [Distinct, List.map_cons, List.nodup_cons] at h
    by_cases hk : k' = k
    · simpa only [Dict.set, if_pos hk, Distinct, List.map_cons, List.nodup_cons] using h
    · simp only [Dict.set, if_neg hk, Distinct, List.map_cons, List.nodup_cons]
      refine ⟨fun hmem => ?_, ih h.2⟩
      rcases mem_keys_set hmem with heq | hmem
      · exact hk heq
      · exact h.1 hmem

/-- A key that is new goes to the end. -/
theorem set_of_notMem {d : Dict α} {k : Str} (v : α) (h : k ∉ d.map (·.1)) :
    d.set k v = d ++ [(k, v)] := by
  induction d with
  | nil => rfl
  | cons head rest ih =>
    obtain ⟨k', v'⟩ := head
    simp only [List.map_cons, List.mem_cons, not_or] at h
    simp [Dict.set, Ne.symm h.1, ih h.2]

theorem get?_eq_some_mem {d : Dict α} {k : Str} {v : α} (h : d.get? k = some v) :
    (k, v) ∈ d := by
  simp only [get?, Option.map_eq_some_iff] at h
  obtain ⟨⟨k', v'⟩, hfind, rfl⟩ := h
  have hkey : k' = k := by simpa using List.find?_some hfind
  subst hkey
  exact List.mem_of_find?_eq_some hfind

end Dict

/-- A value of Python's `json`. -/
inductive Json where
  | null
  | bool (b : Bool)
  | int (n : Int)
  | float (x : Binary64)
  | str (s : Str)
  | arr (items : List Json)
  | obj (members : List (Str × Json))

namespace Json

mutual

/-- Equality of values is decided by recursion over the containers. -/
def decEq : (a b : Json) → Decidable (a = b)
  | .null, .null => isTrue rfl
  | .bool x, .bool y => decidable_of_iff (x = y) (by simp)
  | .int x, .int y => decidable_of_iff (x = y) (by simp)
  | .float x, .float y => decidable_of_iff (x = y) (by simp)
  | .str x, .str y => decidable_of_iff (x = y) (by simp)
  | .arr x, .arr y =>
    have := decEqList x y
    decidable_of_iff (x = y) (by simp)
  | .obj x, .obj y =>
    have := decEqMembers x y
    decidable_of_iff (x = y) (by simp)
  | .null, .bool _ | .null, .int _ | .null, .float _ | .null, .str _
  | .null, .arr _ | .null, .obj _ => isFalse (by simp)
  | .bool _, .null | .bool _, .int _ | .bool _, .float _ | .bool _, .str _
  | .bool _, .arr _ | .bool _, .obj _ => isFalse (by simp)
  | .int _, .null | .int _, .bool _ | .int _, .float _ | .int _, .str _
  | .int _, .arr _ | .int _, .obj _ => isFalse (by simp)
  | .float _, .null | .float _, .bool _ | .float _, .int _ | .float _, .str _
  | .float _, .arr _ | .float _, .obj _ => isFalse (by simp)
  | .str _, .null | .str _, .bool _ | .str _, .int _ | .str _, .float _
  | .str _, .arr _ | .str _, .obj _ => isFalse (by simp)
  | .arr _, .null | .arr _, .bool _ | .arr _, .int _ | .arr _, .float _
  | .arr _, .str _ | .arr _, .obj _ => isFalse (by simp)
  | .obj _, .null | .obj _, .bool _ | .obj _, .int _ | .obj _, .float _
  | .obj _, .str _ | .obj _, .arr _ => isFalse (by simp)

def decEqList : (xs ys : List Json) → Decidable (xs = ys)
  | [], [] => isTrue rfl
  | [], _ :: _ => isFalse (by simp)
  | _ :: _, [] => isFalse (by simp)
  | x :: xs, y :: ys =>
    have := decEq x y
    have := decEqList xs ys
    decidable_of_iff (x = y ∧ xs = ys) (by simp)

def decEqMembers : (xs ys : List (Str × Json)) → Decidable (xs = ys)
  | [], [] => isTrue rfl
  | [], _ :: _ => isFalse (by simp)
  | _ :: _, [] => isFalse (by simp)
  | (k, x) :: xs, (l, y) :: ys =>
    have := decEq x y
    have := decEqMembers xs ys
    decidable_of_iff ((k = l ∧ x = y) ∧ xs = ys) (by simp)

end

instance : DecidableEq Json := decEq

/-- A text or `None`. -/
def ofOption {α : Type} (f : α → Json) : Option α → Json
  | some a => f a
  | none => .null

end Json

/-- `value.get` of a value that should be a dictionary. -/
def asDict : Json → Except PyError (Dict Json)
  | .obj members => .ok members
  | _ => .error (.attributeError (text "get"))

end RtlsStream.Python
