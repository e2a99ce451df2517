import ContractHost.Proofs.State.RoundTrip

/-!
# Where a state is kept

The file of a state may be missing at first, and the directories above it too. The first time that a
state is saved they are made. From then on saving only changes the bytes of the one file, and what is
loaded is the state that was saved last.

* `Home`: a file that keeps a state.
* `Home.load_of_keeps`: the state that was saved last, or else that of the start.
* `Home.save_of_keeps`: a state that is saved, or that has no snapshot.
-/

namespace ContractHost

/-- A file that is there, or that can be made. -/
structure Home (d : Directory) (file : Path) where
  /-- The directory with those above the file. -/
  ready : Directory
  place : List String
  made : d.makeDirectories file.parent = (.ok (), ready)
  admits : ready.Admits file place
  /-- Making directories brings no file to light. -/
  look : ready.look file = d.look file

namespace Home

variable {d d' : Directory} {file : Path}

/-- The directories above a file that are there need not be made. -/
def ofAdmits {place : List String} (h : d.Admits file place) : Home d file where
  ready := d
  place := place
  made := Directory.makeDirectories_of_admits h
  admits := h
  look := rfl

variable (home : Home d file)

/-- The directory with bytes in the file. -/
def holding (bytes : Bytes) : Directory := home.ready.put home.place (.file bytes)

/-- The directories that come up while states are saved, and the state that was saved last. -/
inductive Keeps : Option HostState → Directory → Prop
  | start : Keeps none d
  /-- No state was saved, but directories were made for one. -/
  | ready : Keeps none home.ready
  | saved {s : HostState} {bytes : Bytes} (placed : s.Placed) (h : s.toBytes = .ok bytes) :
    Keeps (some s) (home.holding bytes)

variable {home} {s : HostState} {kept : Option HostState}

theorem holding_admits (bytes : Bytes) : (home.holding bytes).Admits file home.place :=
  home.admits.put bytes

theorem look_holding (bytes : Bytes) : (home.holding bytes).look file = .ok (some (.file bytes)) :=
  home.admits.look_written bytes

/-- Without a save the file is what it was. -/
theorem look_of_unsaved (h : home.Keeps none d') : d'.look file = d.look file := by
  cases h with
  | start => rfl
  | ready => exact home.look

/-- The file holds the snapshot of the state that was saved last. -/
theorem look_of_saved (h : home.Keeps (some s) d') : ∃ text, s.dumps = .ok text ∧
    d'.look file = .ok (some (.file (Utf8.ofChars (text.toList ++ ['\n'])))) := by
  cases h with
  | saved placed h =>
    rw [HostState.toBytes_eq] at h
    cases htext : s.dumps with
    | error fault =>
      rw [htext] at h
      cases h
    | ok text =>
      rw [htext] at h
      cases h
      exact ⟨text, rfl, look_holding _⟩

/-- The directories above the file are there or are made, and what is written then is all that
counts. -/
theorem made_of_keeps (h : home.Keeps kept d') : ∃ between,
    d'.makeDirectories file.parent = (.ok (), between) ∧ home.Keeps kept between ∧
      between.Admits file home.place ∧
      ∀ bytes, between.put home.place (.file bytes) = home.holding bytes := by
  cases h with
  | start => exact ⟨home.ready, home.made, .ready, home.admits, fun bytes => rfl⟩
  | ready =>
    have hmade := Directory.makeDirectories_of_admits home.admits
    exact ⟨home.ready, hmade, .ready, home.admits, fun bytes => rfl⟩
  | @saved s before placed h =>
    have hadmits := home.holding_admits before
    have hmade := Directory.makeDirectories_of_admits hadmits
    exact ⟨_, hmade, .saved placed h, hadmits, fun bytes => Directory.put_put ..⟩

/-- Nothing else is written. -/
theorem find?_of_keeps (h : home.Keeps kept d') {other : List String} (hother : home.place ≠ other) :
    d'.find? other = d.find? other ∨ d'.find? other = home.ready.find? other := by
  cases h with
  | start => exact Or.inl rfl
  | ready => exact Or.inr rfl
  | saved placed h =>
    rw [holding, Directory.find?_put home.admits.ne_nil, if_neg hother]
    exact Or.inr rfl

/-! ## Loading and saving -/

/-- A state that was loaded has each account under its own address. -/
theorem placed_of_load (h : (HostState.load Directory.system file).run d = (.ok s, d)) :
    s.Placed := by
  rw [HostState.load_on] at h
  have hstate := congrArg Prod.fst h
  simp only at hstate
  split at hstate
  · cases hstate
  · cases hstate
    exact .empty
  · rename_i bytes hlook
    unfold HostState.ofBytes at hstate
    split at hstate
    · exact HostState.Placed.loads _ _ hstate
    · cases hstate
  · cases hstate

/-- The state that was saved last is loaded, or else that of the start. -/
theorem load_of_keeps (hload : (HostState.load Directory.system file).run d = (.ok s, d))
    (h : home.Keeps kept d') :
    (HostState.load Directory.system file).run d' = (.ok (kept.getD s), d') := by
  cases h with
  | start => exact hload
  | ready =>
    rw [HostState.load_on] at hload ⊢
    rw [home.look]
    exact congrArg (·, home.ready) (congrArg Prod.fst hload)
  | saved placed hbytes =>
    rw [HostState.load_on, look_holding]
    exact congrArg (·, _) (HostState.ofBytes_toBytes placed hbytes)

theorem placed_of_keeps (placed : s.Placed) (h : home.Keeps kept d') : (kept.getD s).Placed := by
  cases h with
  | start => exact placed
  | ready => exact placed
  | saved placed _ => exact placed

/-- A state is saved if it has a snapshot, and else the file stays what it was. -/
theorem save_of_keeps (placed : s.Placed) (h : home.Keeps kept d') :
    match s.toBytes with
    | .ok bytes => (s.save Directory.system file).run d' = (.ok (), home.holding bytes) ∧
        home.Keeps (some s) (home.holding bytes)
    | .error fault => ∃ between, home.Keeps kept between ∧
        (s.save Directory.system file).run d' = (.error (HostState.saveFailure file fault), between) := by
  obtain ⟨between, hmade, hkeeps, hadmits, hput⟩ := made_of_keeps h
  cases hbytes : s.toBytes with
  | ok bytes =>
    have hsave := HostState.save_eq_ok_iff.2 ⟨between, bytes, home.place, hmade, hbytes, hadmits, rfl⟩
    rw [hput] at hsave
    exact ⟨hsave, .saved placed hbytes⟩
  | error fault =>
    refine ⟨between, hkeeps, ?_⟩
    rw [HostState.save_on, hmade]
    simp only [hbytes]

end Home

end ContractHost
