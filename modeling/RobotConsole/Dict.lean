/-!
# Dictionaries

A dictionary keeps its entries in the order in which their keys were first put in. Putting a key
again replaces its value in place.
-/

namespace RobotConsole

/-- Entries with distinct keys, in order of first insertion. -/
abbrev Dict (β : Type) := List (String × β)

namespace Dict

variable {β : Type}

/-- The value of a key. -/
def get? (d : Dict β) (key : String) : Option β :=
  List.lookup key d

/-- Whether a key has a value. -/
def has (d : Dict β) (key : String) : Bool :=
  (get? d key).isSome

/-- Puts a value under a key: in place when the key is there, at the end otherwise. -/
def put (d : Dict β) (key : String) (value : β) : Dict β :=
  match d with
  | [] => [(key, value)]
  | (k, v) :: rest => if key == k then (k, value) :: rest else (k, v) :: put rest key value

/-- Removes a key. -/
def remove (d : Dict β) (key : String) : Dict β :=
  d.filter fun entry => entry.1 != key

theorem get?_cons (k : String) (v : β) (rest : Dict β) (key : String) :
    get? ((k, v) :: rest) key = if key = k then some v else get? rest key := by
  unfold get?
  rw [List.lookup_cons]
  by_cases h : key = k
  · simp [h]
  · rw [beq_false_of_ne h, if_neg h]

theorem get?_put (d : Dict β) (key : String) (value : β) (k : String) :
    get? (put d key value) k = if k = key then some value else get? d k := by
  induction d with
  | nil => rw [put, get?_cons]
  | cons entry rest ih =>
    obtain ⟨k', v⟩ := entry
    unfold put
    by_cases hkey : key = k'
    · simp only [hkey, beq_self_eq_true, if_true, get?_cons]
      split <;> rfl
    · simp only [beq_iff_eq, hkey, if_false, get?_cons, ih]
      by_cases hk : k = k'
      · simp [hk, Ne.symm hkey]
      · simp [hk]

theorem get?_remove (d : Dict β) (key k : String) :
    get? (remove d key) k = if k = key then none else get? d k := by
  induction d with
  | nil => simp [remove, get?]
  | cons entry rest ih =>
    obtain ⟨k', v⟩ := entry
    unfold remove at ih ⊢
    by_cases hkey : k' = key
    · simp only [List.filter_cons, hkey, bne_self_eq_false, Bool.false_eq_true, if_false, ih,
        get?_cons]
      by_cases hk : k = key <;> simp [hk]
    · simp only [List.filter_cons, bne_iff_ne, ne_eq, hkey, not_false_eq_true, if_true, get?_cons,
        ih]
      by_cases hk : k = k'
      · simp [hk, hkey]
      · simp [hk]

theorem get?_eq_none_iff (d : Dict β) (key : String) :
    get? d key = none ↔ key ∉ d.map Prod.fst := by
  induction d with
  | nil => simp [get?]
  | cons entry rest ih =>
    obtain ⟨k, v⟩ := entry
    rw [get?_cons]
    by_cases h : key = k
    · simp [h]
    · simp [h, ih]

theorem get?_append (d e : Dict β) (key : String) :
    get? (d ++ e) key = (get? d key).or (get? e key) := by
  induction d with
  | nil => rfl
  | cons entry rest ih =>
    obtain ⟨k, v⟩ := entry
    rw [List.cons_append, get?_cons, get?_cons, ih]
    split <;> rfl

/-- Entries chosen by their keys: a key is kept with its value or not at all. -/
theorem get?_filter (d : Dict β) (keep : String → Bool) (key : String) :
    get? (d.filter fun entry => keep entry.1) key = if keep key then get? d key else none := by
  induction d with
  | nil => simp [get?]
  | cons entry rest ih =>
    obtain ⟨k, v⟩ := entry
    cases hk : keep k with
    | true =>
      rw [List.filter_cons_of_pos (by simp [hk]), get?_cons, get?_cons, ih]
      by_cases hkey : key = k
      · simp [hkey, hk]
      · simp [hkey]
    | false =>
      rw [List.filter_cons_of_neg (by simp [hk]), get?_cons, ih]
      by_cases hkey : key = k
      · simp [hkey, hk]
      · simp [hkey]

/-- Puts every entry of a list, in order. -/
def ofList (entries : List (String × β)) : Dict β :=
  entries.foldl (fun d entry => put d entry.1 entry.2) []

/-- The entries with their keys in increasing order. -/
def sorted (d : Dict β) : List (String × β) :=
  d.mergeSort fun a b => decide (a.1 ≤ b.1)

end Dict

end RobotConsole
