import ContractHost.Files.System
import ContractHost.Proofs.OrderedMap

/-!
# The way to a file

The way to a file passes directories only. So it stays what it is when a file is written, the file is
read as it was written, and the directories above it need not be made.

* `Directory.Admits`: a path to a file, or to where one can be.
* `Directory.write_ok_iff`: a file that is written.
* `Directory.makeDirectories_of_admits`: the directories above a file are there.
-/

namespace ContractHost.Directory

variable {d d' : Directory}

/-- A path leads to a place where no directory stands. -/
structure Admits (d : Directory) (path : Path) (place : List String) : Prop where
  placeOf : d.placeOf path = .ok place
  find? : d.find? place ≠ some .directory

theorem find?_root (d : Directory) : d.find? [] = some .directory := if_pos rfl

theorem find?_put {place : List String} (h : place ≠ []) (entry : Entry) (other : List String) :
    (d.put place entry).find? other = if place = other then some entry else d.find? other := by
  by_cases hroot : other = []
  · rw [hroot, find?_root, find?_root, if_neg h]
  · unfold find?
    rw [if_neg hroot, if_neg hroot]
    exact OrderedMap.get?_insert ..

theorem put_put (d : Directory) (place : List String) (before entry : Entry) :
    (d.put place before).put place entry = d.put place entry :=
  congrArg Directory.mk (OrderedMap.insert_insert ..)

/-- A program on a directory leaves it to the next one. -/
theorem run_bind {α β : Type} (program : StateM Directory α) (next : α → StateM Directory β)
    (d : Directory) :
    (program >>= next).run d = (next (program.run d).1).run (program.run d).2 := rfl

theorem isFile?_on (d : Directory) (path : Path) : (system.isFile? path).run d =
    ((d.look path).map (·.map fun entry => entry matches .file _), d) := rfl

theorem read_on (d : Directory) (path : Path) : (system.read path).run d = (d.read path, d) := rfl

theorem write_on (d : Directory) (path : Path) (bytes : Bytes) :
    (system.write path bytes).run d =
      match d.write path bytes with
      | .ok d' => (.ok (), d')
      | .error fault => (.error fault, d) := rfl

/-! ## Names -/

theorem resolve_up (place rest : List String) :
    d.resolve place (".." :: rest) = d.resolve place.dropLast rest := by
  rw [resolve]

theorem resolve_name {name : String} (h : name ≠ "..") (place rest : List String) :
    d.resolve place (name :: rest) =
      if maxNameSize < name.utf8ByteSize then .error .nameTooLong
      else if rest.isEmpty then .ok (place ++ [name])
      else
        match d.find? (place ++ [name]) with
        | none => .error .noFile
        | some (.file _) => .error .notDirectory
        | some .directory => d.resolve (place ++ [name]) rest := by
  exact resolve.eq_3 d place name rest h

/-- A name that leads somewhere leads there at the end, or to a directory before. -/
theorem resolve_name_ok {name : String} (h : name ≠ "..") {place rest target : List String}
    (hresolve : d.resolve place (name :: rest) = .ok target) :
    name.utf8ByteSize ≤ maxNameSize ∧
      (rest = [] ∧ target = place ++ [name] ∨
        rest ≠ [] ∧ d.find? (place ++ [name]) = some .directory ∧
          d.resolve (place ++ [name]) rest = .ok target) := by
  rw [resolve_name h] at hresolve
  split at hresolve
  · cases hresolve
  rename_i hsize
  refine ⟨Nat.le_of_not_lt hsize, ?_⟩
  split at hresolve
  · rename_i hempty
    cases hresolve
    exact Or.inl ⟨List.isEmpty_iff.1 hempty, rfl⟩
  · rename_i hempty
    have hrest : rest ≠ [] := fun heq => hempty (heq ▸ rfl)
    split at hresolve
    · cases hresolve
    · cases hresolve
    · rename_i hfind
      exact Or.inr ⟨hrest, hfind, hresolve⟩

/-- A name alone is the place of a path. -/
theorem placeOf_name {name : String} (hnull : '\x00' ∉ name.toList) (hname : name ≠ "..")
    (hsize : name.utf8ByteSize ≤ maxNameSize) (d : Directory) :
    d.placeOf { parts := [name] } = .ok [name] := by
  have hany : ¬ [name].any (·.contains '\x00') = true := by simpa using hnull
  unfold placeOf
  rw [if_neg hany, resolve_name hname, if_neg (Nat.not_lt.2 hsize)]
  rfl

theorem look_name {name : String} (hnull : '\x00' ∉ name.toList) (hname : name ≠ "..")
    (hsize : name.utf8ByteSize ≤ maxNameSize) (d : Directory) :
    d.look { parts := [name] } = .ok (d.find? [name]) := by
  unfold look
  rw [placeOf_name hnull hname hsize]

/-- Where the directories stay, the ways stay. -/
theorem resolve_mono (h : ∀ place, d.find? place = some .directory → d'.find? place = some .directory)
    {names place target : List String} (hresolve : d.resolve place names = .ok target) :
    d'.resolve place names = .ok target := by
  induction names generalizing place with
  | nil => exact hresolve
  | cons name rest ih =>
    by_cases hname : name = ".."
    · rw [hname, resolve_up] at hresolve ⊢
      exact ih hresolve
    · obtain ⟨hsize, ⟨hrest, rfl⟩ | ⟨hrest, hfind, hlater⟩⟩ := resolve_name_ok hname hresolve
      · rw [resolve_name hname, if_neg (Nat.not_lt.2 hsize), hrest]
        rfl
      · have hempty : rest.isEmpty = false := List.isEmpty_eq_false_iff.2 hrest
        rw [resolve_name hname, if_neg (Nat.not_lt.2 hsize), hempty, h _ hfind]
        exact ih hlater

/-- All places on the way to a place are directories. -/
def Walked (d : Directory) (place : List String) : Prop :=
  ∀ front, front <+: place → d.find? front = some .directory

theorem Walked.dropLast {place : List String} (h : d.Walked place) : d.Walked place.dropLast :=
  fun front hfront => h front (hfront.trans (List.dropLast_prefix place))

theorem Walked.append {place : List String} (h : d.Walked place) {name : String}
    (hfind : d.find? (place ++ [name]) = some .directory) : d.Walked (place ++ [name]) := by
  intro front hfront
  rcases List.prefix_concat_iff.1 hfront with rfl | hbefore
  · exact hfind
  · exact h front hbefore

/-- The way to a place without a directory leads past a directory that the place is in. -/
theorem resolve_dropLast {names place target : List String} (walked : d.Walked place)
    (hresolve : d.resolve place names = .ok target) (htarget : d.find? target ≠ some .directory) :
    ∃ above, d.resolve place names.dropLast = .ok above ∧ d.find? above = some .directory := by
  induction names generalizing place with
  | nil =>
    have hplace : place = target := Except.ok.inj hresolve
    rw [← hplace] at htarget
    exact absurd (walked place (List.prefix_refl place)) htarget
  | cons name rest ih =>
    by_cases hname : name = ".."
    · subst hname
      rw [resolve_up] at hresolve
      by_cases hrest : rest = []
      · exact ⟨place, by rw [hrest]; rfl, walked place (List.prefix_refl place)⟩
      · obtain ⟨above, habove, hfound⟩ := ih walked.dropLast hresolve
        refine ⟨above, ?_, hfound⟩
        rw [List.dropLast_cons_of_ne_nil hrest, resolve_up]
        exact habove
    · rcases resolve_name_ok hname hresolve with ⟨hsize, ⟨rfl, -⟩ | ⟨hrest, hfind, hlater⟩⟩
      · exact ⟨place, rfl, walked place (List.prefix_refl place)⟩
      · obtain ⟨above, habove, hfound⟩ := ih (walked.append hfind) hlater
        refine ⟨above, ?_, hfound⟩
        rw [List.dropLast_cons_of_ne_nil hrest, resolve_name hname, if_neg (Nat.not_lt.2 hsize), hfind]
        split
        · rename_i hempty
          rw [List.isEmpty_iff.1 hempty] at habove
          exact habove
        · exact habove

/-! ## Writing -/

namespace Admits

variable {path : Path} {place : List String}

theorem ne_nil (h : d.Admits path place) : place ≠ [] := by
  rintro rfl
  exact h.find? d.find?_root

theorem look (h : d.Admits path place) : d.look path = .ok (d.find? place) := by
  unfold Directory.look
  rw [h.placeOf]

theorem find?_written (h : d.Admits path place) (bytes : Bytes) :
    (d.put place (.file bytes)).find? place = some (.file bytes) := by
  rw [find?_put h.ne_nil, if_pos rfl]

/-- The way to a file stays when it is written. -/
theorem put (h : d.Admits path place) (bytes : Bytes) :
    (d.put place (.file bytes)).Admits path place := by
  have hplace := h.placeOf
  have hdirectories : ∀ other, d.find? other = some .directory →
      (d.put place (.file bytes)).find? other = some .directory := by
    intro other hother
    have hne : place ≠ other := fun heq => h.find? (heq ▸ hother)
    rw [find?_put h.ne_nil, if_neg hne, hother]
  refine ⟨?_, by rw [h.find?_written]; nofun⟩
  unfold Directory.placeOf at hplace ⊢
  split at hplace
  · cases hplace
  split at hplace
  · cases hplace
  rename_i hparts hroot
  rw [if_neg hparts, if_neg hroot]
  exact resolve_mono hdirectories hplace

theorem look_written (h : d.Admits path place) (bytes : Bytes) :
    (d.put place (.file bytes)).look path = .ok (some (.file bytes)) := by
  rw [(h.put bytes).look, h.find?_written]

end Admits

/-- A file is written where no directory stands. -/
theorem write_ok_iff {path : Path} {bytes : Bytes} :
    d.write path bytes = .ok d' ↔ ∃ place, d.Admits path place ∧ d' = d.put place (.file bytes) := by
  unfold write change
  constructor
  · intro h
    cases hplace : d.placeOf path with
    | error fault =>
      rw [hplace] at h
      cases h
    | ok place =>
      rw [hplace] at h
      simp only [bind, Except.bind] at h
      split at h
      · rename_i before hfind
        cases h
        exact ⟨place, ⟨hplace, by rw [hfind]; nofun⟩, rfl⟩
      · cases h
      · rename_i hfind
        cases h
        exact ⟨place, ⟨hplace, by rw [hfind]; nofun⟩, rfl⟩
  · rintro ⟨place, ⟨hplace, hfind⟩, rfl⟩
    rw [hplace]
    simp only [bind, Except.bind]
    split
    · rfl
    · rename_i hdirectory
      exact absurd hdirectory hfind
    · rfl

theorem placeOf_of_look {path : Path} {entry : Entry} (h : d.look path = .ok (some entry)) :
    ∃ place, d.placeOf path = .ok place ∧ d.find? place = some entry := by
  unfold look at h
  split at h
  · rename_i place hplace
    exact ⟨place, hplace, Except.ok.inj h⟩
  · cases h
  · cases h
  · cases h
  · cases h

/-- What stands at a path is read if it is a file. -/
theorem read_of_look {path : Path} {entry : Entry} (h : d.look path = .ok (some entry)) :
    d.read path =
      match entry with
      | .file bytes => .ok bytes
      | .directory => .error .isDirectory := by
  obtain ⟨place, hplace, hfind⟩ := placeOf_of_look h
  unfold read
  rw [hplace]
  simp only [bind, Except.bind, hfind]
  cases entry <;> rfl

/-! ## Directories above -/

theorem placeOf_parent {path : Path} {place : List String} (h : d.Admits path place) :
    ∃ above, d.placeOf path.parent = .ok above ∧ d.find? above = some .directory := by
  have hplace := h.placeOf
  unfold placeOf at hplace ⊢
  split at hplace
  · cases hplace
  split at hplace
  · cases hplace
  rename_i hparts hroot
  have walked : d.Walked [] := by
    intro front hfront
    rw [List.prefix_nil.1 hfront]
    exact d.find?_root
  have hnull : ¬ path.parent.parts.any (·.contains '\x00') = true := by
    intro hany
    obtain ⟨part, hpart, hnull⟩ := List.any_eq_true.1 hany
    exact hparts (List.any_eq_true.2 ⟨part, (List.dropLast_sublist _).subset hpart, hnull⟩)
  have hroot : ¬ path.parent.isAbsolute = true := hroot
  rw [if_neg hnull, if_neg hroot]
  exact resolve_dropLast walked hplace h.find?

/-- The directories above a file need not be made. -/
theorem makeDirectories_of_admits {path : Path} {place : List String} (h : d.Admits path place) :
    d.makeDirectories path.parent = (.ok (), d) := by
  obtain ⟨above, habove, hfind⟩ := placeOf_parent h
  have hmake : d.makeDirectory path.parent = .error .fileExists := by
    unfold makeDirectory
    rw [habove]
    simp only [bind, Except.bind, hfind]
    rfl
  have hthere : d.isDirectory path.parent = true := by
    unfold isDirectory look
    rw [habove]
    simp only [hfind]
  unfold makeDirectories
  cases hnames : path.parent.parts.reverse with
  | nil => rfl
  | cons name rest =>
    have hpath : ({ root := path.parent.root, parts := (name :: rest).reverse } : Path) =
        path.parent := by
      rw [← hnames, List.reverse_reverse]
    rw [makeAll, hpath, hmake]
    exact if_pos ⟨nofun, hthere⟩

end ContractHost.Directory
