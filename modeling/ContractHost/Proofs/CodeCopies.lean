import ContractHost.Boundary.Buffer
import ContractHost.Proofs.Bytes
import ContractHost.Proofs.Boundary.Transparent

/-!
# Copies of code

Through the native boundary an interpreter learns the size of a code and its hash, and copies it piece by
piece into buffers of its own. The three views agree: a copy ends where the code or the room in the buffer
ends, whichever comes first, also from an offset at the end of the code or far behind it, and what lies
behind the copy stays as it was. Pieces that are copied one after another, until one is empty, make up the
code.

* `Session.Hosts`: a session in which a handle names a host.
* `copyCode_of_hosts`: one copy.
* `readCode`, `readCode_cases`: copies one after another.
* `copyCode_exact`: what all copies, the size and the hash have to do with the code.
-/

namespace ContractHost

/-! ## Questions that change nothing -/

/-- A session in which a handle is live and names a host. -/
structure Session.Hosts (session : Session) (handle : Handle) (host : Host) : Prop where
  tidy : session.arena.Tidy
  live : ∃ loan, session.arena.resolve handle Host.baseKind = .ok loan ∧ loan.occupant.object = host

theorem dispatch_of_not_call (methods : Methods) (handle : Handle) {q : Query} (hq : q.isCall = false)
    (session : Session) : dispatch methods handle q session = dispatchQuestion methods handle q session := by
  cases q with
  | call => cases hq
  | _ => rfl

variable {session : Session} {handle : Handle} {host : Host}

/-- A question that leaves the state as it is gets its answer, and the host is there for the next one. -/
theorem dispatch_of_reply (hosts : session.Hosts handle host) (call : Message → Run Outcome) {q : Query}
    (hq : q.isCall = false) {answer : q.Answer} (h : host.reply q = (.ok answer, host.state)) :
    ∃ after, dispatch (.ofCall call) handle q session = (answer, after) ∧ after.Hosts handle host := by
  obtain ⟨loan, hlive, rfl⟩ := hosts.live
  have hprogram : (Methods.stateAnswer q).on { host := loan.occupant.object, session } =
      (.ok answer, { host := loan.occupant.object, session }) := by
    rw [stateAnswer_on, h]
  obtain ⟨hholds, hhost, -⟩ := Arena.update_live hlive (.refl hosts.tidy) (Arena.Keeps.refl _)
    loan.occupant.object
  have hborrow : borrowing handle ((Methods.ofCall call).answer q) session =
      (.ok answer, { session with arena := session.arena.update loan loan.occupant.object }) := by
    refine (borrowing_granted hlive hprogram).trans ?_
    simp only [Arena.endLoan, hholds, if_true]
    rfl
  have htidy := (Arena.Restores.update hosts.tidy loan loan.occupant.object).tidy
  rw [dispatch_of_not_call _ _ hq, dispatchQuestion, hborrow]
  exact ⟨_, rfl, htidy, hhost⟩

/-! ## One copy -/

theorem HostState.copyCode_natCast (s : HostState) (address : Address) (offset size : Nat) :
    s.copyCode address offset size = ((s.code address).drop offset).take size :=
  slice_eq_take ..

/-- The bytes of a code that a copy gives. -/
def HostState.piece (s : HostState) (address : Address) (offset size : UInt64) : Bytes :=
  ((s.code address).drop offset.toNat).take size.toNat

theorem HostState.length_piece (s : HostState) (address : Address) (offset size : UInt64) :
    (s.piece address offset size).length =
      min size.toNat ((s.code address).length - offset.toNat) := by
  rw [piece, List.length_take, List.length_drop]

/-- Behind a piece the code goes on. -/
theorem HostState.piece_append (s : HostState) (address : Address) (offset size : UInt64) :
    s.piece address offset size ++
        (s.code address).drop (offset.toNat + (s.piece address offset size).length) =
      (s.code address).drop offset.toNat := by
  rw [← List.drop_drop]
  exact List.prefix_iff_eq_append.1 (List.take_prefix ..)

/-- What has room in a buffer is written whole. -/
theorem Buffer.fill_of_le {buffer : Buffer} {answer : Bytes} (h : answer.length ≤ buffer.size.toNat) :
    buffer.fill answer = (answer.length, answer ++ buffer.bytes.drop answer.length) := by
  rw [fill, Nat.min_eq_left h, List.take_length]
  rfl

theorem copyCode_of_hosts (hosts : session.Hosts handle host) (call : Message → Run Outcome)
    (address : Address) (offset : UInt64) (buffer : Buffer) :
    ∃ after, after.Hosts handle host ∧ copyCode (.ofCall call) handle address offset buffer session =
      (((host.state.piece address offset buffer.size).length,
        host.state.piece address offset buffer.size ++
          buffer.bytes.drop (host.state.piece address offset buffer.size).length), after) := by
  have hreply : host.reply (.copyCode address offset buffer.size) =
      (.ok (host.state.piece address offset buffer.size), host.state) := by
    rw [Host.reply, HostState.copyCode_natCast]
    rfl
  have hroom : (host.state.piece address offset buffer.size).length ≤ buffer.size.toNat := by
    rw [HostState.length_piece]
    exact Nat.min_le_left _ _
  obtain ⟨after, hdispatch, hafter⟩ := dispatch_of_reply hosts call rfl hreply
  refine ⟨after, hafter, ?_⟩
  rw [copyCode, hdispatch]
  exact congrArg (·, after) (Buffer.fill_of_le hroom)

/-! ## Copies one after another -/

/-- Reads code from an offset on, each piece into a buffer of its own and from where the one before it
ended, until a piece is empty. Nothing is read if the buffers do not suffice for that. -/
def readCode (methods : Methods) (handle : Handle) (address : Address) :
    List Buffer → (offset : UInt64) → Session → Option Bytes
  | [], _, _ => none
  | buffer :: buffers, offset, session =>
    let ((written, filled), session) := copyCode methods handle address offset buffer session
    if written = 0 then some []
    else
      (readCode methods handle address buffers (offset + UInt64.ofNat written) session).map
        (filled.take written ++ ·)

/-- Each piece but the last one has a byte at least, so a buffer for each byte and one more suffice. -/
theorem readCode_cases (call : Message → Run Outcome) (address : Address)
    (small : (host.state.code address).length < twoTo 64) {buffers : List Buffer}
    (room : ∀ buffer ∈ buffers, 0 < buffer.size.toNat) (hosts : session.Hosts handle host)
    (offset : UInt64) (inside : offset.toNat ≤ (host.state.code address).length) :
    readCode (.ofCall call) handle address buffers offset session =
        some ((host.state.code address).drop offset.toNat) ∨
      readCode (.ofCall call) handle address buffers offset session = none ∧
        buffers.length ≤ (host.state.code address).length - offset.toNat := by
  induction buffers generalizing offset session with
  | nil => exact .inr ⟨rfl, Nat.zero_le _⟩
  | cons buffer buffers ih =>
    obtain ⟨hbuffer, hbuffers⟩ := List.forall_mem_cons.1 room
    obtain ⟨after, hafter, hcopy⟩ := copyCode_of_hosts hosts call address offset buffer
    rw [readCode, hcopy]
    have hlength := host.state.length_piece address offset buffer.size
    have hjoin := host.state.piece_append address offset buffer.size
    generalize hpiece : host.state.piece address offset buffer.size = piece at hlength hjoin ⊢
    simp only
    by_cases hempty : piece.length = 0
    · -- an empty piece has room, so nothing of the code is left
      have hdone : (host.state.code address).drop offset.toNat = [] :=
        List.drop_eq_nil_of_le (by omega)
      rw [if_pos hempty, hdone]
      exact .inl rfl
    · have hnext : (offset + UInt64.ofNat piece.length).toNat = offset.toNat + piece.length := by
        rw [UInt64.toNat_add, UInt64.toNat_ofNat']
        change _ < 2 ^ 64 at small
        omega
      rw [if_neg hempty, List.take_left]
      rcases ih hbuffers hafter (offset + UInt64.ofNat piece.length) (by omega) with
        hread | ⟨hread, hmany⟩
      · rw [hread, hnext]
        exact .inl (congrArg some hjoin)
      · rw [hread]
        refine .inr ⟨rfl, ?_⟩
        rw [List.length_cons]
        omega

/-! ## All views of a code -/

/-- A copy ends where the code ends, whose size the host gives, or where the room ends: so many bytes of
the buffer are those of the code from the offset on, the others are as they were, and the host is as it
was too. For a code with a size of 64 bits, pieces of whatever sizes, each with room for a byte at least,
make up exactly the code, and there are enough of them once they are more than the bytes. The hash is that
of the code, and zero if the code is empty or there is none. -/
theorem copyCode_exact (hosts : session.Hosts handle host) (call : Message → Run Outcome)
    (address : Address) :
    let methods := Methods.ofCall call
    let size : Nat := (dispatch methods handle (.getCodeSize address) session).1
    let hash : Bytes32 := (dispatch methods handle (.getCodeHash address) session).1
    let code := host.state.code address
    (∀ offset buffer, let written := min buffer.size.toNat (size - offset.toNat)
      ∃ after, after.Hosts handle host ∧ copyCode methods handle address offset buffer session =
        ((written, (code.drop offset.toNat).take written ++ buffer.bytes.drop written), after)) ∧
      (size < twoTo 64 → ∀ buffers : List Buffer, (∀ buffer ∈ buffers, 0 < buffer.size.toNat) →
        (∀ read, readCode methods handle address buffers 0 session = some read → read = code) ∧
          (size < buffers.length → readCode methods handle address buffers 0 session = some code)) ∧
      hash = if code = [] then .zero else Keccak.hash code := by
  intro methods size hash code
  have hsize : size = code.length := by
    obtain ⟨after, hdispatch, -⟩ :=
      dispatch_of_reply hosts call (q := .getCodeSize address) rfl rfl
    exact congrArg Prod.fst hdispatch
  have hhash : hash = host.state.getCodeHash address := by
    obtain ⟨after, hdispatch, -⟩ :=
      dispatch_of_reply hosts call (q := .getCodeHash address) rfl rfl
    exact congrArg Prod.fst hdispatch
  refine ⟨fun offset buffer => ?_, fun small buffers room => ?_, ?_⟩
  · obtain ⟨after, hafter, hcopy⟩ := copyCode_of_hosts hosts call address offset buffer
    have hwritten := host.state.length_piece address offset buffer.size
    have hpiece : (code.drop offset.toNat).take (min buffer.size.toNat (size - offset.toNat)) =
        host.state.piece address offset buffer.size := by
      rw [HostState.piece, List.take_eq_take_iff, List.length_drop, hsize]
      omega
    refine ⟨after, hafter, hcopy.trans ?_⟩
    rw [hpiece, hwritten, hsize]
  · have hcases := readCode_cases call address (hsize ▸ small) room hosts 0 (Nat.zero_le _)
    rw [UInt64.toNat_zero, List.drop_zero, Nat.sub_zero] at hcases
    refine ⟨fun read hread => ?_, fun hmany => ?_⟩
    · rcases hcases with hcode | ⟨hnone, -⟩
      · exact Option.some.inj (hread.symm.trans hcode)
      · cases hread.symm.trans hnone
    · rcases hcases with hcode | ⟨-, hfew⟩
      · exact hcode
      · exact absurd hfew (Nat.not_le_of_lt (hsize ▸ hmany))
  · rw [hhash, HostState.getCodeHash]
    simp only [List.isEmpty_iff]
    rfl

/-- A code of three bytes, of which the last one is copied from offset 2 into a buffer of four, and which
two pieces of two bytes and an empty one make up. -/
theorem copyCode_exact_pieces :
    let host := (World.calling [1, 2, 3]).host
    let methods := Methods.ofCall fun _ => return .failed .internalError
    let wide : Buffer := ⟨[4, 5, 6, 7], 4, by decide⟩
    let narrow : Buffer := ⟨[8, 9], 2, by decide⟩
    (Session.hosting host).Hosts 1 host ∧
      (copyCode methods 1 (.ofNat 3) 2 wide (.hosting host)).1 = (1, [3, 5, 6, 7]) ∧
      readCode methods 1 (.ofNat 3) [narrow, narrow, narrow, narrow] 0 (.hosting host) =
        some [1, 2, 3] := by
  intro host methods wide narrow
  have hosts : (Session.hosting host).Hosts 1 host :=
    ⟨Session.hosting_tidy host, _, Session.hosting_live host, rfl⟩
  have hsize : (dispatch methods 1 (.getCodeSize (.ofNat 3)) (.hosting host)).1 = (3 : Nat) := by
    decide +kernel
  obtain ⟨hcopy, hread, -⟩ := copyCode_exact hosts (fun _ => return .failed .internalError) (.ofNat 3)
  rw [hsize] at hcopy hread
  obtain ⟨after, -, hafter⟩ := hcopy 2 wide
  refine ⟨hosts, ?_, ?_⟩
  · rw [hafter]
    dsimp only
    decide +kernel
  · exact (hread (by decide) [narrow, narrow, narrow, narrow] (by decide)).2 (by decide)

end ContractHost
