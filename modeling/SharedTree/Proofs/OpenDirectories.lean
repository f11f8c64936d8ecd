import SharedTree.Directory

/-! The directories of a client, as far as it matters who listens to them. Opening one
under a name that is open already gives that one; else a new one comes after all the
others. So while none is closed, a name has one directory, whoever came to listen to it
meanwhile. -/
namespace SharedTree.Registry

/-- The name of a directory, and whether somebody listens to it. -/
def standing (r : Registry) (id : DirectoryId) : Option (String × Bool) :=
  (r.directory? id).map fun d => (d.name, d.hasListener)

/-- A directory that somebody listens to. -/
def Hooked (r : Registry) (id : DirectoryId) (name : String) : Prop :=
  r.standing id = some (name, true)

theorem directory?_modify (r : Registry) (id k : DirectoryId)
    (change : Directory → Directory) :
    (r.modify id change).directory? k =
      if id = k then (r.directory? k).map change else r.directory? k := by
  obtain ⟨i⟩ := id
  obtain ⟨j⟩ := k
  simp only [modify, directory?, List.getElem?_modify, DirectoryId.mk.injEq]
  split
  · rfl
  · exact Option.map_id_apply

/-- Writing to a directory leaves all of them standing. -/
theorem standing_modify (r : Registry) (id : DirectoryId) {change : Directory → Directory}
    (kept : ∀ d, (change d).name = d.name ∧ (change d).hasListener = d.hasListener)
    (k : DirectoryId) : (r.modify id change).standing k = r.standing k := by
  rw [standing, directory?_modify]
  split
  · simp [standing, Function.comp_def, kept]
  · rfl

theorem standing_hook (r : Registry) (id k : DirectoryId) (hook : Bool) :
    (r.modify id fun d => { d with hasListener := hook }).standing k =
      if id = k then (r.standing k).map fun standing => (standing.1, hook) else r.standing k := by
  rw [standing, directory?_modify]
  split
  · simp [standing, Function.comp_def]
  · rfl

/-- Where no directory is open under a name, a new one comes after all others. -/
theorem openAs_new {r : Registry} {name : String} (absent : r.get? name = none) :
    ∃ id, r.standing id = none ∧ (r.openAs name).1 = id ∧
      (∀ k, (r.openAs name).2.standing k = if k = id then some (name, false) else r.standing k) ∧
      ∀ other, (r.openAs name).2.get? other = if name = other then some id else r.get? other := by
  refine ⟨⟨r.directories.length⟩, ?_⟩
  simp only [openAs, absent]
  refine ⟨by simp [standing, directory?], trivial, ?_, ?_⟩
  · rintro ⟨i⟩
    simp only [standing, directory?, DirectoryId.mk.injEq, List.getElem?_append]
    split
    · rename_i early
      rw [if_neg (Nat.ne_of_lt early)]
    · rename_i late
      by_cases last : i = r.directories.length
      · simp [last]
      · simp [last, Nat.le_of_not_lt late]
        omega
  · intro other
    simp [get?, Std.ExtTreeMap.getElem?_insert]

theorem openAs_open {r : Registry} {name : String} {id : DirectoryId}
    (found : r.get? name = some id) : r.openAs name = (id, r) := by
  rw [openAs, found]

theorem get?_openAs (r : Registry) (name : String) :
    (r.openAs name).2.get? name = some (r.openAs name).1 := by
  cases found : r.get? name with
  | some id =>
    rw [openAs_open found]
    exact found
  | none =>
    obtain ⟨id, -, given, -, get?⟩ := openAs_new found
    rw [get?, if_pos rfl, given]

theorem get?_close (r : Registry) (name other : String) :
    (r.close name).2.get? other = if name = other then none else r.get? other := by
  simp [close, get?, Std.ExtTreeMap.getElem?_erase]

/-- While a client runs, every directory that it opened is open, and somebody listens
to those of the users that it listened for. -/
structure Tracks (r : Registry) (listened : List String) : Prop where
  opened : ∀ name id, r.get? name = some id ↔ ∃ hook, r.standing id = some (name, hook)
  hooked : ∀ id name hook, r.standing id = some (name, hook) → (hook = true ↔ name ∈ listened)
  listed : ∀ name ∈ listened, r.get? name ≠ none

theorem tracks_new (location : String) : Tracks { location } [] where
  opened name id := by simp [get?, standing, directory?]
  hooked id name hook known := by simp [standing, directory?] at known
  listed := by simp

theorem Tracks.openAs {r : Registry} {listened : List String} (tracks : r.Tracks listened)
    (name : String) :
    (r.openAs name).2.Tracks listened ∧
      (r.openAs name).2.get? name = some (r.openAs name).1 := by
  cases found : r.get? name with
  | some id =>
    rw [openAs_open found]
    exact ⟨tracks, found⟩
  | none =>
    obtain ⟨id, unused, -, standing, get?⟩ := openAs_new found
    refine ⟨⟨?_, ?_, ?_⟩, r.get?_openAs name⟩
    · intro other k
      rw [get?, standing]
      by_cases new : k = id
      · subst new
        rw [if_pos rfl]
        split
        · rename_i same
          subst same
          simp
        · rename_i different
          -- another name's directory was there before, so that it is not the new one
          have elsewhere : r.get? other ≠ some k := by
            intro old
            obtain ⟨hook, known⟩ := (tracks.opened other k).mp old
            cases unused.symm.trans known
          simp [elsewhere, different]
      · rw [if_neg new]
        split
        · rename_i same
          subst same
          rw [← tracks.opened, found]
          simp [Ne.symm new]
        · exact tracks.opened other k
    · intro k other hook known
      rw [standing] at known
      split at known
      · cases known
        simp only [Bool.false_eq_true, false_iff]
        exact fun heard => tracks.listed name heard found
      · exact tracks.hooked k other hook known
    · intro other heard
      rw [get?]
      split
      · exact Option.some_ne_none id
      · exact tracks.listed other heard

theorem Tracks.congr {r after : Registry} {listened : List String} (tracks : r.Tracks listened)
    (get? : ∀ name, after.get? name = r.get? name)
    (standing : ∀ id, after.standing id = r.standing id) : after.Tracks listened where
  opened name id := by rw [get?, standing, tracks.opened]
  hooked id name hook := by rw [standing]; exact tracks.hooked id name hook
  listed name heard := by rw [get?]; exact tracks.listed name heard

/-- Somebody comes to listen to one more directory. -/
theorem Tracks.listen {r : Registry} {listened : List String} (tracks : r.Tracks listened)
    {name : String} {id : DirectoryId} (found : r.get? name = some id) :
    (r.modify id fun d => { d with hasListener := true }).Tracks (listened ++ [name]) := by
  obtain ⟨before, there⟩ := (tracks.opened name id).mp found
  refine ⟨?_, ?_, ?_⟩
  · intro other k
    change r.get? other = some k ↔ _
    rw [standing_hook, tracks.opened]
    split
    · simp only [Option.map_eq_some_iff, Prod.exists, Prod.mk.injEq]
      constructor
      · rintro ⟨hook, known⟩
        exact ⟨true, other, hook, known, rfl, rfl⟩
      · rintro ⟨_, _, hook, known, rfl, -⟩
        exact ⟨hook, known⟩
    · rfl
  · intro k other hook known
    rw [standing_hook] at known
    rw [List.mem_append, List.mem_singleton]
    split at known
    · rename_i same
      subst same
      rw [there] at known
      cases known
      simp
    · rename_i apart
      have different : other ≠ name := by
        rintro rfl
        have again := (tracks.opened other k).mpr ⟨hook, known⟩
        exact apart (Option.some.inj (found.symm.trans again))
      simp [different, tracks.hooked k other hook known]
  · intro other heard
    change r.get? other ≠ none
    rcases List.mem_append.mp heard with earlier | now
    · exact tracks.listed other earlier
    · rw [List.mem_singleton.mp now, found]
      exact Option.some_ne_none id

end SharedTree.Registry
