import ContractHost.Proofs.Files.Directory
import ContractHost.Proofs.State.Documents
import ContractHost.Proofs.State.Numbers
import ContractHost.Proofs.State.Reachable
import ContractHost.State.Saved

/-!
# Snapshots that read back

A state is read back from its snapshot as it was, with the order of everything in it, and from the file
that it was saved to. Its snapshot exists if its numbers have texts, as those of a state have that was
read itself.

* `HostState.loads_dumps`: a state from its snapshot.
* `HostState.load_of_save`: a state from its file.
* `snapshot_round_trip`: every state that comes up.
-/

namespace ContractHost

namespace HostState

variable {s : HostState}

theorem Placed.entries (placed : s.Placed) : ∀ entry ∈ s.accounts.entries, entry.2.address = entry.1 :=
  fun entry hentry => placed entry.1 entry.2 (OrderedMap.get?_of_mem hentry)

/-! ## Texts -/

theorem dumps_eq_ok_iff {text : String} :
    s.dumps = .ok text ↔ s.Short ∧ text = Json.write .indented s.toValue := by
  rw [← writable_toValue, dumps]
  split
  · rename_i hwritable
    simp [hwritable, eq_comm]
  · rename_i hwritable
    simp [hwritable]

theorem dumps_eq_error {fault : Fault} (h : s.dumps = .error fault) : fault = .badValue := by
  unfold dumps at h
  split at h
  · cases h
  · exact (Except.error.inj h).symm

/-- A state is read back from its snapshot, also with white space after it. -/
theorem loads_dumps (placed : s.Placed) {text : String} (h : s.dumps = .ok text)
    {spaces : List Char} (hspaces : ∀ c ∈ spaces, Json.isSpace c = true) :
    loads (.plain (text ++ String.ofList spaces)) = .ok s := by
  obtain ⟨short, rfl⟩ := dumps_eq_ok_iff.1 h
  have hread := Json.read_write s.plain_toValue (s.writable_toValue.2 short) .indented hspaces
  have hvalue : ofValue s.toValue = .ok s := ofValue_toValue placed.entries
  unfold loads
  rw [hread]
  exact hvalue

/-! ## Files -/

theorem toBytes_eq (s : HostState) :
    s.toBytes = s.dumps.map fun text => Utf8.ofChars (text.toList ++ ['\n']) := by
  unfold toBytes
  cases s.dumps <;> rfl

theorem ofBytes_toBytes (placed : s.Placed) {bytes : Bytes} (h : s.toBytes = .ok bytes) :
    ofBytes bytes = .ok s := by
  have hline : ∀ c ∈ ['\n'], Json.isSpace c = true := List.forall_mem_singleton.2 rfl
  rw [toBytes_eq] at h
  cases htext : s.dumps with
  | error fault =>
    rw [htext] at h
    cases h
  | ok text =>
    rw [htext] at h
    cases h
    have hchars : String.ofList (text.toList ++ ['\n']) = text ++ String.ofList ['\n'] := by
      rw [String.ofList_append, String.ofList_toList]
    unfold ofBytes
    rw [Utf8.decode?_ofChars]
    show loads (.plain (String.ofList (text.toList ++ ['\n']))) = _
    rw [hchars]
    exact loads_dumps placed htext hline

/-- A state is loaded from what stands at its path. -/
theorem load_on (path : Path) (d : Directory) :
    (load Directory.system path).run d =
      (match d.look path with
      | .error fault => .error (.escaped fault)
      | .ok none => .ok {}
      | .ok (some (.file bytes)) => ofBytes bytes
      | .ok (some .directory) => .error (.error (.unreadable path.text .isDirectory)), d) := by
  rw [load, Directory.run_bind, Directory.isFile?_on]
  cases hlook : d.look path with
  | error fault => rfl
  | ok found =>
    cases found with
    | none => rfl
    | some entry =>
      show (Directory.system.read path >>= _).run d = _
      rw [Directory.run_bind, Directory.read_on, Directory.read_of_look hlook]
      cases entry <;> rfl

/-- What saving a state does, step by step. -/
theorem save_on (s : HostState) (path : Path) (d : Directory) :
    (s.save Directory.system path).run d =
      match d.makeDirectories path.parent with
      | (.error fault, between) => (.error (saveFailure path fault), between)
      | (.ok (), between) =>
        match s.toBytes with
        | .error fault => (.error (saveFailure path fault), between)
        | .ok bytes =>
          match between.write path bytes with
          | .error fault => (.error (saveFailure path fault), between)
          | .ok d' => (.ok (), d') := by
  have hmake : (Directory.system.makeDirectories path.parent).run d =
      d.makeDirectories path.parent := rfl
  rw [save, Directory.run_bind, hmake]
  obtain ⟨made, between⟩ := d.makeDirectories path.parent
  cases made with
  | error fault => rfl
  | ok =>
    cases s.toBytes with
    | error fault => rfl
    | ok bytes =>
      show (Directory.system.write path bytes >>= _).run between = _
      rw [Directory.run_bind, Directory.write_on]
      cases hresult : between.write path bytes with
      | error fault =>
        simp only [hresult]
        rfl
      | ok after =>
        simp only [hresult]
        rfl

/-- A state is saved if the directories above its file are there or can be made, it has a snapshot, and
no directory stands in the way. -/
theorem save_eq_ok_iff {path : Path} {d d' : Directory} :
    (s.save Directory.system path).run d = (.ok (), d') ↔
      ∃ between bytes place, d.makeDirectories path.parent = (.ok (), between) ∧
        s.toBytes = .ok bytes ∧ between.Admits path place ∧ d' = between.put place (.file bytes) := by
  rw [save_on]
  constructor
  · intro h
    split at h
    · cases h
    · rename_i between hmake
      split at h
      · cases h
      · rename_i bytes hbytes
        split at h
        · cases h
        · rename_i after hwrite
          cases h
          obtain ⟨place, hadmits, hafter⟩ := Directory.write_ok_iff.1 hwrite
          exact ⟨between, bytes, place, hmake, hbytes, hadmits, hafter⟩
  · rintro ⟨between, bytes, place, hmake, hbytes, hadmits, rfl⟩
    have hwrite : between.write path bytes = .ok (between.put place (.file bytes)) :=
      Directory.write_ok_iff.2 ⟨place, hadmits, rfl⟩
    simp only [hmake, hbytes, hwrite]

/-- A state that was saved is what is loaded. -/
theorem load_of_save (placed : s.Placed) {path : Path} {d d' : Directory}
    (h : (s.save Directory.system path).run d = (.ok (), d')) :
    (load Directory.system path).run d' = (.ok s, d') := by
  obtain ⟨between, bytes, place, -, hbytes, hadmits, rfl⟩ := save_eq_ok_iff.1 h
  rw [load_on, hadmits.look_written bytes]
  exact congrArg (·, _) (ofBytes_toBytes placed hbytes)

end HostState

/-- Every state that comes up has each account under its own address, and is read back, with the order
of its accounts, slots, logs, topics and destructed addresses, from its snapshot, which exists if its
numbers have texts, and from a file that it was saved to. What was read from a text always has a
snapshot. -/
theorem snapshot_round_trip [Room] {s : HostState} (h : s.Reachable) :
    (∀ entry ∈ s.accounts.entries, entry.2.address = entry.1) ∧
      (s.Short → ∃ text, s.dumps = .ok text ∧ HostState.loads text = .ok s ∧
        (HostState.loads text).map HostState.dumps = .ok (.ok text)) ∧
      (∀ path d d', (s.save Directory.system path).run d = (.ok (), d') →
        (HostState.load Directory.system path).run d' = (.ok s, d')) ∧
      ∀ text t, HostState.loads text = .ok t →
        ∃ text', t.dumps = .ok text' ∧ HostState.loads text' = .ok t := by
  have hround {t : HostState} (placed : t.Placed) (short : t.Short) :
      ∃ text, t.dumps = .ok text ∧ HostState.loads text = .ok t := by
    have hdumps : t.dumps = .ok (Json.write .indented t.toValue) :=
      HostState.dumps_eq_ok_iff.2 ⟨short, rfl⟩
    have hloads := HostState.loads_dumps placed hdumps (List.forall_mem_nil _)
    rw [show String.ofList [] = "" from rfl, String.append_empty] at hloads
    exact ⟨_, hdumps, hloads⟩
  refine ⟨h.placed.entries, fun short => ?_, fun path d d' => HostState.load_of_save h.placed, ?_⟩
  · obtain ⟨text, hdumps, hloads⟩ := hround h.placed short
    refine ⟨text, hdumps, hloads, ?_⟩
    rw [hloads]
    exact congrArg Except.ok hdumps
  intro text t hloads
  exact hround (.loads text t hloads) (HostState.short_loads text t hloads)

/-- A world in which a slot was written directly, and whose code writes it again. -/
def World.rewriting : World :=
  (Callback.setStorage (.ofNat 3) .zero (.ofNat 9)).leaves (.calling [0x60, 5, 0x60, 0, 0x55])

section

attribute [local instance] Room.usual

theorem snapshot_round_trip_rewriting :
    ∃ w' text, (Host.call { gas := 50, destination := .ofNat 1 }).run .rewriting =
        .ok { gasLeft := 42, createAddress := .ofNat 1 } w' ∧
      w'.host.state.dumps = .ok text ∧ HostState.loads text = .ok w'.host.state ∧
      w'.host.state.getStorage (.ofNat 3) .zero = .ofNat 5 := by
  have hreturns : ((Host.call { gas := 50, destination := .ofNat 1 }).on .rewriting).1 =
      .ok { gasLeft := 42, createAddress := .ofNat 1 } := by
    decide +kernel
  have hcall := Run.run_of_ok hreturns
  have hdeploy {s : HostState} (h : s.Reachable) (address : Address) (code : Bytes) :
      (s.deploy address code).Reachable := by
    unfold HostState.deploy
    exact h.updated address fun _ => rfl
  have hcalling (code : Bytes) : (World.calling code).host.state.Reachable :=
    hdeploy (hdeploy .empty _ _) _ _
  have hreachable : ((Host.call { gas := 50, destination := .ofNat 1 }).on
      .rewriting).2.host.state.Reachable :=
    .called (.answered (hcalling _) _) (Arena.Tidy.empty Host.baseKind) (by decide) hcall
  have hshort := (HostState.writable_toValue
    ((Host.call { gas := 50, destination := .ofNat 1 }).on .rewriting).2.host.state).1
      (by decide +kernel)
  obtain ⟨-, hround, -⟩ := snapshot_round_trip hreachable
  obtain ⟨text, hdumps, hloads, -⟩ := hround hshort
  exact ⟨_, text, hcall, hdumps, hloads, by decide +kernel⟩

end

end ContractHost
