/-!
# Outstanding jobs by owner

A pool records, for every owner, the jobs that are queued or running on its behalf. The index is a
map from owners to sets of jobs. An owner comes into the map with its first job and goes with its
last one, so it is on record exactly while it has outstanding jobs; that is what the changes have
to see to, as a map could as well hold an owner with an empty set.

## Main definitions

* `OwnerIndex` — the map, in the order in which the owners came into it
* `OwnerIndex.ids` — the jobs recorded for an owner, `OwnerIndex.owners` — the owners on record
* `OwnerIndex.register`, `OwnerIndex.release`, `OwnerIndex.forget` — the changes
* `OwnerIndex.Proper` — no owner has two sets, and none an empty one

## Main results

* `OwnerIndex.ids_register`, `ids_release`, `ids_forget` — what each change does to the records
* `OwnerIndex.Proper.register`, `Proper.release`, `Proper.forget` — the changes keep the map proper
* `OwnerIndex.Proper.mem_owners_iff` — who is on record
-/

namespace Troupe

/-- The number of a job within its pool. -/
abbrev JobId := Nat

/-- A name is looked up among the others. -/
theorem lookup_filter_ne {α : Type} (name key : String) (entries : List (String × α)) :
    (entries.filter (·.1 != name)).lookup key =
      if key = name then none else entries.lookup key := by
  induction entries with
  | nil => simp
  | cons e rest ih =>
    obtain ⟨k, v⟩ := e
    by_cases hk : k = name
    · subst hk
      by_cases h : key = k
      · subst h
        rw [List.filter_cons_of_neg (by simp), ih]
        simp
      · rw [List.filter_cons_of_neg (by simp), ih]
        simp [List.lookup_cons, beq_false_of_ne h]
    · rw [List.filter_cons_of_pos (by simpa using hk)]
      by_cases h : key = k
      · subst h
        simp [hk]
      · simp [List.lookup_cons, beq_false_of_ne h, ih]

/-- The outstanding jobs of every owner. -/
structure OwnerIndex where
  /-- The owners, each with its set of jobs in the order of submission. -/
  sets : List (String × List JobId) := []
  deriving Repr, DecidableEq, Inhabited

namespace OwnerIndex

/-- The set of an owner that is on record. -/
def find? (index : OwnerIndex) (owner : String) : Option (List JobId) := index.sets.lookup owner

/-- The jobs recorded for an owner. -/
def ids (index : OwnerIndex) (owner : String) : List JobId := (index.find? owner).getD []

/-- The owners on record. -/
def owners (index : OwnerIndex) : List String := index.sets.map (·.1)

/-- Replaces the set of an owner that is on record. -/
def replace (owner : String) (ids : List JobId) (index : OwnerIndex) : OwnerIndex :=
  ⟨index.sets.map fun s => if s.1 = owner then (owner, ids) else s⟩

/-- Records a job for its owner. An owner that is not on record gets a set. -/
def register (owner : String) (id : JobId) (index : OwnerIndex) : OwnerIndex :=
  match index.find? owner with
  | some ids => index.replace owner (if id ∈ ids then ids else ids ++ [id])
  | none => ⟨index.sets ++ [(owner, [id])]⟩

/-- Takes an owner off the record, with its set. -/
def forget (owner : String) (index : OwnerIndex) : OwnerIndex :=
  ⟨index.sets.filter (·.1 != owner)⟩

/-- Ends the record of a job, if there still is one. An owner without any others is taken off the
record. -/
def release (owner : String) (id : JobId) (index : OwnerIndex) : OwnerIndex :=
  match index.find? owner with
  | some ids =>
    let left := ids.filter (· != id)
    if left.isEmpty then index.forget owner else index.replace owner left
  | none => index

variable {index : OwnerIndex} {owner name : String} {id : JobId}

/-! ### What the changes do to the sets -/

theorem find?_replace (ids : List JobId) : (index.replace owner ids).find? name =
    if name = owner then (index.find? name).map fun _ => ids else index.find? name := by
  obtain ⟨sets⟩ := index
  simp only [find?, replace]
  induction sets with
  | nil => simp
  | cons s sets ih =>
    obtain ⟨key, old⟩ := s
    rw [List.map_cons]
    by_cases hkey : key = owner
    · subst hkey
      by_cases hname : name = key
      · simp [hname]
      · simpa [List.lookup_cons, beq_false_of_ne hname, hname] using ih
    · by_cases hname : name = key
      · subst hname
        simp [hkey]
      · simp [List.lookup_cons, beq_false_of_ne hname, hkey, ih]

theorem find?_forget :
    (index.forget owner).find? name = if name = owner then none else index.find? name :=
  lookup_filter_ne owner name index.sets

/-- A job that is new to its owner comes behind the others. -/
theorem ids_register : (index.register owner id).ids name =
    if name = owner ∧ id ∉ index.ids name then index.ids name ++ [id] else index.ids name := by
  rw [register]
  by_cases howner : name = owner
  · subst howner
    cases hfind : index.find? name with
    | some old =>
      by_cases hold : id ∈ old <;> simp [ids, find?_replace, hfind, hold]
    | none =>
      rw [find?] at hfind
      simp [ids, find?, List.lookup_append, hfind]
  · cases hfind : index.find? owner with
    | some old => simp [ids, find?_replace, howner]
    | none =>
      simp [ids, find?, List.lookup_append, List.lookup_cons, howner, beq_false_of_ne howner]

theorem mem_ids_register {job : JobId} :
    job ∈ (index.register owner id).ids name ↔ job ∈ index.ids name ∨ name = owner ∧ job = id := by
  rw [ids_register]
  by_cases hname : name = owner
  · subst hname
    by_cases hid : id ∈ index.ids name
    · rw [if_neg fun h => h.2 hid]
      refine ⟨.inl, ?_⟩
      rintro (hjob | ⟨-, rfl⟩)
      · exact hjob
      · exact hid
    · simp [hid]
  · simp [hname]

theorem ids_release : (index.release owner id).ids name =
    if name = owner then (index.ids name).filter (· != id) else index.ids name := by
  rw [release]
  cases hfind : index.find? owner with
  | none =>
    by_cases howner : name = owner
    · subst howner
      simp [ids, hfind]
    · simp [howner]
  | some old =>
    dsimp only
    by_cases howner : name = owner
    · subst howner
      split
      · rename_i hnone
        simp [ids, hfind, find?_forget, List.isEmpty_iff.mp hnone]
      · simp [ids, hfind, find?_replace]
    · split <;> simp [ids, howner, find?_forget, find?_replace]

theorem ids_forget :
    (index.forget owner).ids name = if name = owner then [] else index.ids name := by
  rw [ids, find?_forget]
  split <;> rfl

/-! ### Who is on record -/

/-- The index is a map, and nobody is on record without a job. -/
structure Proper (index : OwnerIndex) : Prop where
  /-- Every owner on record has one set. -/
  nodup : index.owners.Nodup
  /-- No set is empty. -/
  nonempty : ∀ s ∈ index.sets, s.2 ≠ []

theorem owners_replace (ids : List JobId) : (index.replace owner ids).owners = index.owners := by
  simp only [owners, replace, List.map_map]
  refine List.map_congr_left fun s _ => ?_
  by_cases h : s.1 = owner <;> simp [h]

theorem replace_replace (ids more : List JobId) :
    (index.replace owner ids).replace owner more = index.replace owner more := by
  simp only [replace, List.map_map]
  congr 1
  refine List.map_congr_left fun s _ => ?_
  by_cases h : s.1 = owner <;> simp [h]

theorem mem_owners : owner ∈ index.owners ↔ (index.find? owner).isSome = true := by
  rw [owners, List.mem_map, find?, List.lookup_isSome_iff]
  simp only [beq_iff_eq, eq_comm (a := owner)]

theorem lookup_of_mem {sets : List (String × List JobId)} {s : String × List JobId}
    (h : (sets.map (·.1)).Nodup) (hs : s ∈ sets) : sets.lookup s.1 = some s.2 := by
  induction sets with
  | nil => cases hs
  | cons t sets ih =>
    obtain ⟨hnew, hrest⟩ := List.nodup_cons.mp h
    rcases List.mem_cons.mp hs with rfl | hs
    · exact List.lookup_cons_self
    · have hne : s.1 ≠ t.1 := fun heq => hnew (List.mem_map.mpr ⟨s, hs, heq⟩)
      rw [List.lookup_cons, beq_false_of_ne hne]
      exact ih hrest hs

theorem mem_sets_of_find? {ids : List JobId} (h : index.find? owner = some ids) :
    (owner, ids) ∈ index.sets := by
  obtain ⟨l₁, l₂, hsets, -⟩ := List.lookup_eq_some_iff.mp h
  rw [hsets]
  simp

namespace Proper

theorem blank : Proper {} := ⟨.nil, by simp⟩

theorem replace (h : index.Proper) {ids : List JobId} (hids : ids ≠ []) :
    (index.replace owner ids).Proper where
  nodup := by
    rw [owners_replace]
    exact h.nodup
  nonempty s hs := by
    obtain ⟨old, hold, rfl⟩ := List.mem_map.mp hs
    split
    · exact hids
    · exact h.nonempty old hold

/-- Whoever is registered is on record with a job. -/
theorem register (h : index.Proper) (owner : String) (id : JobId) :
    (index.register owner id).Proper := by
  rw [OwnerIndex.register]
  cases hfind : index.find? owner with
  | some ids =>
    refine h.replace ?_
    split
    · exact List.ne_nil_of_mem ‹_›
    · simp
  | none =>
    have hnew : owner ∉ index.owners := by simp [mem_owners, hfind]
    refine ⟨?_, fun s hs => ?_⟩
    · rw [owners, List.map_append]
      refine List.nodup_append.mpr ⟨h.nodup, by simp, fun key hkey name hname => ?_⟩
      rintro rfl
      obtain rfl : key = owner := List.mem_singleton.mp hname
      exact hnew hkey
    · rcases List.mem_append.mp hs with hold | hs
      · exact h.nonempty s hold
      · rw [List.mem_singleton.mp hs]
        simp

theorem forget (h : index.Proper) (owner : String) : (index.forget owner).Proper :=
  ⟨h.nodup.sublist (List.filter_sublist.map _), fun s hs => h.nonempty s (List.mem_filter.mp hs).1⟩

/-- Whoever is left without a job is taken off the record. -/
theorem release (h : index.Proper) (owner : String) (id : JobId) :
    (index.release owner id).Proper := by
  rw [OwnerIndex.release]
  split
  · dsimp only
    split
    · exact h.forget owner
    · rename_i hleft
      exact h.replace fun hnil => hleft (List.isEmpty_iff.mpr hnil)
  · exact h

/-- **Who is on record** has outstanding jobs. -/
theorem mem_owners_iff (h : index.Proper) : owner ∈ index.owners ↔ index.ids owner ≠ [] := by
  rw [mem_owners, ids]
  cases hfind : index.find? owner with
  | none => simp
  | some ids => simpa using h.nonempty _ (mem_sets_of_find? hfind)

/-- There is nothing to forget about an owner without records. -/
theorem forget_of_ids_eq_nil (h : index.Proper) (hids : index.ids owner = []) :
    index.forget owner = index := by
  have hnone : owner ∉ index.owners := fun hmem => h.mem_owners_iff.mp hmem hids
  rw [OwnerIndex.forget, List.filter_eq_self.mpr]
  rintro s hs
  refine bne_iff_ne.mpr ?_
  rintro rfl
  exact hnone (List.mem_map_of_mem hs)

/-- To put the set of an owner in its own place changes nothing. -/
theorem replace_of_find? (h : index.Proper) {ids : List JobId}
    (hfind : index.find? owner = some ids) : index.replace owner ids = index := by
  have hsame : ∀ s ∈ index.sets, (if s.1 = owner then (owner, ids) else s) = s := by
    rintro ⟨key, old⟩ hs
    split
    · rename_i hkey
      obtain rfl : key = owner := hkey
      obtain rfl : old = ids := Option.some.inj ((lookup_of_mem h.nodup hs).symm.trans hfind)
      rfl
    · rfl
  rw [OwnerIndex.replace, List.map_congr_left hsame, List.map_id']

/-- To record a new job and to end its record changes nothing. -/
theorem release_register (h : index.Proper) (hnew : id ∉ index.ids owner) :
    (index.register owner id).release owner id = index := by
  cases hfind : index.find? owner with
  | none =>
    -- The owner comes onto the record and goes again.
    have hids : index.ids owner = [] := by rw [ids, hfind]; rfl
    have hfresh : find? ⟨index.sets ++ [(owner, [id])]⟩ owner = some [id] := by
      rw [find?] at hfind ⊢
      simp [List.lookup_append, hfind]
    have hgone : OwnerIndex.forget owner ⟨index.sets ++ [(owner, [id])]⟩ = index := by
      refine Eq.trans ?_ (h.forget_of_ids_eq_nil hids)
      simp [OwnerIndex.forget]
    simpa [OwnerIndex.register, OwnerIndex.release, hfind, hfresh] using hgone
  | some old =>
    have hold : id ∉ old := by simpa [ids, hfind] using hnew
    have hfound : (index.replace owner (old ++ [id])).find? owner = some (old ++ [id]) := by
      simp [find?_replace, hfind]
    have hleft : (old ++ [id]).filter (· != id) = old := by
      have hkept : old.filter (· != id) = old := List.filter_eq_self.mpr fun j hj =>
        bne_iff_ne.mpr fun heq => hold (by rwa [heq] at hj)
      simp [hkept]
    have hstays : old.isEmpty = false :=
      List.isEmpty_eq_false_iff.mpr (h.nonempty _ (mem_sets_of_find? hfind))
    simp only [OwnerIndex.register, OwnerIndex.release, hfind, if_neg hold, hfound, hleft, hstays]
    rw [if_neg Bool.false_ne_true, replace_replace, h.replace_of_find? hfind]

end Proper

end OwnerIndex

end Troupe
