import StoredProc.Disk

/-!
What it means that a file is made where a path leads. Writing changes
one entry. A path that was opened for writing goes through directories
only, and what it ends in is no link, so a file there stands in the way
of no name: the same path leads to it afterwards, and the bytes that are
read there are those that were written.
-/

namespace StoredProc.Disk

variable {disk : Disk} {place : Location}

theorem entry?_put_self (hplace : place ≠ []) (disk : Disk) (entry : Entry) :
    Disk.entry? (disk.put place entry) place = some entry := by
  simp [put, hplace, entry?]

theorem lookup_filter_ne {other : Location} (h : other ≠ place)
    (entries : List (Location × Entry)) :
    (entries.filter (·.1 ≠ place)).lookup other = entries.lookup other := by
  induction entries with
  | nil => rfl
  | cons first entries ih =>
      obtain ⟨key, entry⟩ := first
      by_cases hkey : key = place
      · have hother : (other == key) = false := by simp [hkey, h]
        rw [List.filter_cons_of_neg (by simpa using hkey), ih, List.lookup_cons, hother]
      · rw [List.filter_cons_of_pos (by simpa using hkey), List.lookup_cons, List.lookup_cons, ih]

theorem entry?_put_of_ne {other : Location} (h : other ≠ place) (disk : Disk) (entry : Entry) :
    Disk.entry? (disk.put place entry) other = disk.entry? other := by
  have hother : (other == place) = false := by simp [h]
  simp only [put, List.lookup_cons, hother, lookup_filter_ne h, entry?]

/-- Of two entries put at one place the second stays. -/
theorem put_put (disk : Disk) (place : Location) (first second : Entry) :
    (disk.put place first).put place second = disk.put place second := by
  simp [put, List.filter_filter]

/-! ### Paths that lead to a file -/

/-- A place at which a file stands or can be made. -/
def Free (disk : Disk) (place : Location) : Prop :=
  disk.entry? place = none ∨ ∃ bytes, disk.entry? place = some (.file bytes)

theorem Free.ne_nil (h : disk.Free place) : place ≠ [] := by
  rintro rfl
  obtain h | ⟨bytes, h⟩ := h <;> cases h

theorem Free.ne_of_directory {other : Location} {fault : Option Fault} (h : disk.Free place)
    (hother : disk.entry? other = some (.directory fault)) : other ≠ place := by
  rintro rfl
  obtain h | ⟨bytes, h⟩ := h <;> rw [h] at hother <;> cases hother

/-- A file at a free place is the other name of nothing, as before. -/
theorem Free.follow_put (h : disk.Free place) (bytes : List UInt8) (other : Location) :
    (disk.put place (.file bytes)).follow other = disk.follow other := by
  by_cases hother : other = place
  · subst hother
    rw [follow, entry?_put_self h.ne_nil, follow]
    obtain h | ⟨held, h⟩ := h <;> rw [h]
  · rw [follow, entry?_put_of_ne hother, follow]

theorem Free.enter_put (h : disk.Free place) (bytes : List UInt8) {directory next : Location}
    {name : Text} (henter : disk.enter directory name = .ok next) :
    (disk.put place (.file bytes)).enter directory name = .ok next := by
  unfold enter at henter ⊢
  split at henter
  · cases henter
  · next fault hdirectory =>
      rw [entry?_put_of_ne (h.ne_of_directory hdirectory), hdirectory, h.follow_put]
      exact henter
  · cases henter

/-- Names that could be followed can be followed with a file at a free
place. -/
theorem Free.foldlM_enter_put (h : disk.Free place) (bytes : List UInt8) {names : List Text}
    {start last : Location} (hwalk : names.foldlM disk.enter start = .ok last) :
    names.foldlM (disk.put place (.file bytes)).enter start = .ok last := by
  induction names generalizing start with
  | nil => exact hwalk
  | cons name names ih =>
      rw [List.foldlM_cons] at hwalk ⊢
      cases henter : disk.enter start name with
      | error fault =>
          rw [henter] at hwalk
          cases hwalk
      | ok next =>
          rw [henter] at hwalk
          rw [h.enter_put bytes henter]
          exact ih hwalk

/-! ### Opening -/

theorem bind_eq_ok {α β : Type} {x : Except Fault α} {f : α → Except Fault β} {b : β}
    (h : (x >>= f) = .ok b) : ∃ a, x = .ok a ∧ f a = .ok b := by
  cases x with
  | error fault => cases h
  | ok a => exact ⟨a, rfl, h⟩

/-- What is opened as a file is a free place. -/
theorem free_of_opened {fault : Option Fault} {next : Location}
    (h : disk.opened fault next = .ok (.file place)) : next = place ∧ disk.Free place := by
  unfold opened at h
  split at h
  · next hnone =>
      split at h
      · cases h
        exact ⟨rfl, .inl hnone⟩
      · cases h
  · cases h
  · next bytes hfile =>
      cases h
      exact ⟨rfl, .inr ⟨bytes, hfile⟩⟩
  · cases h
  · cases h
  · cases h

theorem enter_of_target {directory : Location} {name : Text} {slashed : Bool}
    (h : disk.target directory name slashed = .ok (.file place)) :
    slashed = false ∧ disk.enter directory name = .ok place ∧ disk.Free place := by
  unfold target at h
  split at h
  · cases h
  · next fault hdirectory =>
      split at h
      · cases h
      · next hslashed =>
          obtain ⟨next, henter, hopened⟩ := bind_eq_ok h
          obtain ⟨rfl, hfree⟩ := free_of_opened hopened
          exact ⟨by simpa using hslashed, henter, hfree⟩
  · cases h

/-- A path that opens a file names it: it has no slash at its end, its
names lead to the place, and the place is free. -/
theorem walk_of_targetOf {text : Text} (h : disk.targetOf text = .ok (.file place)) :
    ∃ path, Disk.path text = .ok path ∧ path.slashed = false ∧
      disk.walk path path.names = .ok place ∧ disk.Free place := by
  unfold targetOf at h
  obtain ⟨path, hpath, h⟩ := bind_eq_ok h
  split at h
  · cases h
  · next name hname =>
      obtain ⟨directory, hwalk, htarget⟩ := bind_eq_ok h
      obtain ⟨hslashed, henter, hfree⟩ := enter_of_target htarget
      obtain ⟨names, hnames⟩ := List.getLast?_eq_some_iff.mp hname
      refine ⟨path, hpath, hslashed, ?_, hfree⟩
      rw [hnames, List.dropLast_concat, walk] at hwalk
      rw [hnames, walk, List.foldlM_append, hwalk]
      change [name].foldlM disk.enter directory = .ok place
      rw [List.foldlM_cons, henter]
      rfl

/-- The bytes put where a path was opened are read there. -/
theorem read_put_of_targetOf {text : Text} (h : disk.targetOf text = .ok (.file place))
    (bytes : List UInt8) : (disk.put place (.file bytes)).read text = .ok bytes := by
  obtain ⟨path, hpath, hslashed, hwalk, hfree⟩ := walk_of_targetOf h
  have hwalk' : (disk.put place (.file bytes)).walk path path.names = .ok place :=
    hfree.foldlM_enter_put bytes hwalk
  have hentry := entry?_put_self hfree.ne_nil disk (.file bytes)
  simp only [read, hpath, bind, Except.bind, hwalk', hentry, hslashed, Bool.false_and,
    Bool.false_eq_true, if_false, contents]

theorem targetOf_of_create {text : Text} {created : Disk} {outlet : Outlet}
    (h : disk.create text = .ok (created, outlet)) :
    disk.targetOf text = .ok outlet ∧ created = disk.fill outlet [] := by
  obtain ⟨target, htarget, h⟩ := bind_eq_ok h
  cases h
  exact ⟨htarget, rfl⟩

end StoredProc.Disk
