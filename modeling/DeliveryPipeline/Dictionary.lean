/-!
# Dictionaries

A dictionary maps texts to values and is kept in ascending order of its keys, so two dictionaries
with the same bindings are the same value. Setting a key replaces its value.
-/
namespace DeliveryPipeline

def KeysAscend {α : Type} (entries : List (String × α)) : Prop :=
  entries.Pairwise fun a b => compare a.1 b.1 = .lt

instance {α : Type} (entries : List (String × α)) : Decidable (KeysAscend entries) :=
  inferInstanceAs (Decidable (List.Pairwise _ entries))

/-- Bindings of texts to values, in ascending order of the texts. -/
structure Dictionary (α : Type) where
  entries : List (String × α)
  ascending : KeysAscend entries
deriving DecidableEq

namespace Dictionary

variable {α : Type}

def empty : Dictionary α := ⟨[], List.Pairwise.nil⟩

instance : Inhabited (Dictionary α) := ⟨empty⟩

/-- Set one key in an ascending list of bindings. -/
def setEntry (key : String) (value : α) : List (String × α) → List (String × α)
  | [] => [(key, value)]
  | (k, v) :: rest =>
    match compare key k with
    | .lt => (key, value) :: (k, v) :: rest
    | .eq => (key, value) :: rest
    | .gt => (k, v) :: setEntry key value rest

theorem fst_of_mem_setEntry {key : String} {value : α} {entries : List (String × α)}
    {b : String × α} (h : b ∈ setEntry key value entries) : b.1 = key ∨ b ∈ entries := by
  induction entries with
  | nil => simp_all [setEntry]
  | cons e rest ih =>
    unfold setEntry at h
    split at h <;> simp only [List.mem_cons] at h ⊢ <;> grind

theorem keysAscend_setEntry (key : String) (value : α) {entries : List (String × α)}
    (h : KeysAscend entries) : KeysAscend (setEntry key value entries) := by
  induction entries with
  | nil => simp [setEntry, KeysAscend]
  | cons e rest ih =>
    obtain ⟨hk, hr⟩ := List.pairwise_cons.1 h
    unfold setEntry
    split
    next hlt =>
      refine List.pairwise_cons.2 ⟨fun b hb => ?_, h⟩
      rcases List.mem_cons.1 hb with rfl | hb
      · exact hlt
      · exact Std.TransCmp.lt_trans hlt (hk b hb)
    next heq =>
      have : key = e.1 := Std.LawfulEqCmp.eq_of_compare heq
      exact List.pairwise_cons.2 ⟨fun b hb => this ▸ hk b hb, hr⟩
    next hgt =>
      refine List.pairwise_cons.2 ⟨fun b hb => ?_, ih hr⟩
      rcases fst_of_mem_setEntry hb with hb | hb
      · rw [hb]; exact Std.OrientedCmp.lt_of_gt hgt
      · exact hk b hb

/-- Bind `key` to `value`, in place of an earlier binding of `key`. -/
def set (d : Dictionary α) (key : String) (value : α) : Dictionary α :=
  ⟨setEntry key value d.entries, keysAscend_setEntry key value d.ascending⟩

def get? (d : Dictionary α) (key : String) : Option α :=
  d.entries.lookup key

theorem lookup_setEntry (key other : String) (value : α) (entries : List (String × α)) :
    (setEntry key value entries).lookup other =
      if other = key then some value else entries.lookup other := by
  induction entries with
  | nil =>
    by_cases h : other = key
    · simp [setEntry, h]
    · simp [setEntry, List.lookup_cons, beq_eq_false_iff_ne.2 h, h]
  | cons e rest ih =>
    obtain ⟨k, v⟩ := e
    unfold setEntry
    split
    next =>
      by_cases h : other = key
      · simp [h]
      · simp [List.lookup_cons, beq_eq_false_iff_ne.2 h, h]
    next heq =>
      obtain rfl : key = k := Std.LawfulEqCmp.eq_of_compare heq
      by_cases h : other = key
      · simp [h]
      · simp [List.lookup_cons, beq_eq_false_iff_ne.2 h, h]
    next hgt =>
      have hk : k ≠ key := by
        rintro rfl
        simp [Std.ReflCmp.compare_self] at hgt
      by_cases h : other = k
      · simp [h, hk]
      · simp [List.lookup_cons, beq_eq_false_iff_ne.2 h, ih]

theorem get?_set (d : Dictionary α) (key other : String) (value : α) :
    (d.set key value).get? other = if other = key then some value else d.get? other :=
  lookup_setEntry key other value d.entries

@[simp] theorem get?_empty (key : String) : (empty : Dictionary α).get? key = none := rfl

/-- Set the bindings of a list one after another, so the last binding of a key stays. -/
def ofList (bindings : List (String × α)) : Dictionary α :=
  bindings.foldl (fun d b => d.set b.1 b.2) empty

def keys (d : Dictionary α) : List String :=
  d.entries.map (·.1)

def size (d : Dictionary α) : Nat :=
  d.entries.length

def isEmpty (d : Dictionary α) : Bool :=
  d.entries.isEmpty

theorem eq_of_entries {d d' : Dictionary α} (h : d.entries = d'.entries) : d = d' := by
  obtain ⟨entries, ascending⟩ := d
  obtain ⟨entries', ascending'⟩ := d'
  cases h
  rfl

theorem isEmpty_iff {d : Dictionary α} : d.isEmpty = true ↔ d = empty := by
  rw [isEmpty, List.isEmpty_iff]
  exact ⟨fun h => eq_of_entries h, fun h => congrArg entries h⟩

/-- A key behind all others is set at the end. -/
theorem setEntry_of_forall_lt {key : String} {value : α} {entries : List (String × α)}
    (h : ∀ b ∈ entries, compare b.1 key = .lt) :
    setEntry key value entries = entries ++ [(key, value)] := by
  induction entries with
  | nil => rfl
  | cons e rest ih =>
    obtain ⟨he, hrest⟩ := List.forall_mem_cons.1 h
    have hgt : compare key e.1 = .gt := Std.OrientedCmp.gt_of_lt he
    rw [setEntry, hgt, ih hrest, List.cons_append]

/-- Bindings that ascend from those of a dictionary on are set behind them as they are. -/
theorem entries_foldl_set {d : Dictionary α} {bindings : List (String × α)}
    (h : KeysAscend (d.entries ++ bindings)) :
    (bindings.foldl (fun d b => d.set b.1 b.2) d).entries = d.entries ++ bindings := by
  induction bindings generalizing d with
  | nil => simp
  | cons b rest ih =>
    have hset : (d.set b.1 b.2).entries = d.entries ++ [b] :=
      setEntry_of_forall_lt fun e he =>
        (List.pairwise_append.1 h).2.2 e he b List.mem_cons_self
    rw [List.append_cons, ← hset] at h
    rw [List.foldl_cons, ih h, hset, List.append_assoc, List.singleton_append]

theorem ofList_entries (d : Dictionary α) : ofList d.entries = d :=
  eq_of_entries (entries_foldl_set d.ascending)

end Dictionary

end DeliveryPipeline
