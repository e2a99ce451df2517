import ContractHost.Proofs.Execution.Effects
import ContractHost.Proofs.Execution.Course

/-!
# Counting creations

An account counts the creations that it starts, and the address of a plain creation is derived from the
count of that moment. The count is moved on in the state of the frame that creates, before its nested
frame gets a copy, and comes back when the copy is adopted; meanwhile the same account may create from
other frames. Over a whole call each creation is counted once, however deep it is and however it ends,
so no number is used for two of them.

* `Numbers`: frames that move an account's count from one number to another.
* `Course.numbers`: the frames that start among the events of a frame.
* `call_counts_creations`: the counts of the accounts that are there after a call.
-/

namespace ContractHost

/-- Frames among which the creations of an account move its count from one number to another. The plain
creations get their addresses from increasing numbers in between. -/
structure Numbers (a : Address) (low high : Int) (frames : List Spawn) : Prop where
  count : high = low + (frames.filter fun f => f.kind.isCreate ∧ f.sender = a).length
  derived : ∃ nonces : List Int, nonces.Pairwise (· < ·) ∧
    (∀ n ∈ nonces, low ≤ n ∧ n < high) ∧
    nonces.map (Derivation.create a) =
      (frames.filter fun f => f.kind = .create ∧ f.sender = a).map (.ok ·.callee)

namespace Numbers

variable {a : Address} {low middle high : Int} {first second : List Spawn}

theorem none (a : Address) (n : Int) : Numbers a n n [] := by
  refine ⟨?_, [], .nil, nofun, rfl⟩
  show n = n + 0
  omega

theorem append (h : Numbers a low middle first) (h' : Numbers a middle high second) :
    Numbers a low high (first ++ second) := by
  obtain ⟨nonces, hsorted, hbetween, hderived⟩ := h.derived
  obtain ⟨nonces', hsorted', hbetween', hderived'⟩ := h'.derived
  have hcount := h.count
  have hcount' := h'.count
  refine ⟨?_, nonces ++ nonces', ?_, ?_, ?_⟩
  · rw [List.filter_append, List.length_append]
    omega
  · refine List.pairwise_append.2 ⟨hsorted, hsorted', fun n hn n' hn' => ?_⟩
    have hless := hbetween n hn
    have hmore := hbetween' n' hn'
    omega
  · intro n hn
    rcases List.mem_append.1 hn with hn | hn
    · have hless := hbetween n hn
      omega
    · have hmore := hbetween' n hn
      omega
  · rw [List.map_append, hderived, hderived', List.filter_append, List.map_append]

/-- A frame that is not a creation of the account. -/
theorem other {frame : Spawn} (h : ¬(frame.kind.isCreate ∧ frame.sender = a)) (n : Int) :
    Numbers a n n [frame] := by
  have hplain : ¬(frame.kind = .create ∧ frame.sender = a) := by
    rintro ⟨hkind, hsender⟩
    exact h ⟨by rw [hkind]; rfl, hsender⟩
  refine ⟨?_, [], .nil, nofun, ?_⟩
  · rw [List.filter_cons_of_neg (by simpa using h)]
    show n = n + 0
    omega
  · rw [List.filter_cons_of_neg (by simpa using hplain)]
    rfl

theorem creation {frame : Spawn} (hkind : frame.kind.isCreate) {n : Int}
    (hderived : frame.kind = .create → Derivation.create frame.sender n = .ok frame.callee) :
    Numbers frame.sender n (n + 1) [frame] := by
  refine ⟨?_, ?_⟩
  · rw [List.filter_cons_of_pos (by simpa using hkind)]
    rfl
  · by_cases hplain : frame.kind = .create
    · refine ⟨[n], List.pairwise_singleton .., ?_, ?_⟩
      · intro m hm
        rw [List.mem_singleton.1 hm]
        omega
      · rw [List.filter_cons_of_pos (by simpa using hplain)]
        simpa using hderived hplain
    · refine ⟨[], .nil, nofun, ?_⟩
      rw [List.filter_cons_of_neg (by simpa using hplain)]
      rfl

end Numbers

/-! ## The count of an account in a course -/

/-- Whether an event moves a count on. -/
def Event.isCounted : Event → Bool
  | .counted .. => true
  | _ => false

theorem HostState.nonce_writeSlot (account : Account) (key value : Bytes32) :
    (writeSlot account key value).2.nonce = account.nonce := by
  rcases writeSlot_cases account key value with hwrite | ⟨-, hwrite⟩ | ⟨old, slot, -, -, hwrite⟩
  all_goals rw [hwrite]

theorem Event.change_nonce {event : Event} (h : event.isCounted = false) (account : Account) :
    (event.change account).nonce = account.nonce := by
  cases event with
  | counted => cases h
  | answered q answer =>
    cases q with
    | setStorage address key value => exact HostState.nonce_writeSlot account key value
    | _ => rfl
  | _ => rfl

theorem Event.nonce_effect {event : Event} {a : Address} (hkept : event.destructed? ≠ some a)
    (h : event.isCounted = false) (s : HostState) :
    ((event.effect s).account a).nonce = (s.account a).nonce := by
  rw [Event.account_effect hkept]
  split
  · exact Event.change_nonce h _
  · rfl

theorem HostState.start_derived {s : HostState} {message : Message} {start : Start}
    (h : s.start message = .ok start) (hkind : message.kind = .create) :
    Derivation.create message.sender (s.account message.sender).nonce = .ok start.callee := by
  have hcallee := start_callee h
  unfold resolveCallee at hcallee
  rw [hkind] at hcallee
  simp only [account_touch] at hcallee
  split at hcallee
  · rename_i callee hderived
    cases hcallee
    exact hderived
  · cases hcallee

/-- A call moves the count of its sender if it creates, and no other. -/
theorem HostState.start_numbers {s : HostState} {message : Message} {start : Start}
    (h : s.start message = .ok start) (a : Address) :
    Numbers a (s.account a).nonce ((s.resolveCallee message).2.account a).nonce
      [s.spawn message start] := by
  have hkind : (s.spawn message start).kind = message.kind := by
    rw [spawn, start_message h]
  have hsender : (s.spawn message start).sender = message.sender := by
    rw [spawn, start_message h]
  by_cases hcreates : message.kind.isCreate ∧ message.sender = a
  · obtain ⟨hcreate, rfl⟩ := hcreates
    have hcount : ((s.resolveCallee message).2.account message.sender).nonce =
        (s.account message.sender).nonce + 1 := by
      rw [account, find?_resolveCallee h, if_pos rfl, if_pos hcreate]
      rfl
    rw [hcount, ← hsender]
    refine Numbers.creation (hkind ▸ hcreate) fun hplain => ?_
    rw [hsender]
    exact start_derived h (hkind ▸ hplain)
  · have hsame : ((s.resolveCallee message).2.account a).nonce = (s.account a).nonce := by
      rw [account, find?_resolveCallee h]
      by_cases hsender : message.sender = a
      · have hcreate : ¬message.kind.isCreate := fun hcreate => hcreates ⟨hcreate, hsender⟩
        rw [if_pos hsender, if_neg hcreate]
        rfl
      · rw [if_neg hsender]
        rfl
    rw [hsame]
    refine .other ?_ _
    rwa [hkind, hsender]

theorem Message.Sees.isCounted {message : Message} {event : Event} (h : message.Sees event) :
    event.isCounted = false := by
  cases event with
  | counted sender nonce kind => exact h.elim
  | _ => rfl

theorem Start.nonce_deployment (start : Start) (outcome : Outcome) (s : HostState) (a : Address) :
    ((replay (start.deployment outcome) s).account a).nonce = (s.account a).nonce := by
  unfold deployment
  split
  · have hkept : (Event.deployed start.callee outcome.output).destructed? ≠ some a := nofun
    exact Event.nonce_effect hkept rfl s
  · rfl

/-- What is numbered in the nested frame of a call is numbered in the call. -/
theorem HostState.course_numbers {s : HostState} {message : Message} {start : Start}
    (h : s.start message = .ok start) {a : Address} {inner : List Event} (outcome : Outcome)
    (hinner : Numbers a ((s.enter message start).account a).nonce
      ((replay inner (s.enter message start)).account a).nonce (spawns inner)) :
    Numbers a (s.account a).nonce
      ((replay (s.course message start inner outcome) s).account a).nonce
      (spawns (s.course message start inner outcome)) := by
  have hnested : (replay inner (s.enter message start)).account a =
      (replay inner (s.resolveCallee message).2).account a := by
    rw [enter, replay_clone]
    rfl
  rw [spawns_course, replay_course, start.nonce_deployment, ← hnested]
  exact (start_numbers h a).append hinner

/-- The frames that start among the events of a frame are numbered, for each account that none of these
events destructs. -/
theorem Course.numbers {message : Message} {s : HostState} {trace : List Event}
    (h : Course message s trace) {a : Address} (hkept : ∀ e ∈ trace, e.destructed? ≠ some a) :
    Numbers a (s.account a).nonce ((replay trace s).account a).nonce (spawns trace) := by
  induction h with
  | nil => exact .none ..
  | @event message s event rest sees later ih =>
    have hrest := ih fun e he => hkept e (List.mem_cons_of_mem event he)
    rw [Event.nonce_effect (hkept event List.mem_cons_self) sees.isCounted] at hrest
    unfold spawns
    rw [List.filterMap_cons_none sees.spawned?]
    exact hrest
  | @call message nested s start inner rest outcome begets starts frame later ihframe ihlater =>
    have hinner := ihframe fun e he => hkept e (by simp [HostState.course, HostState.visit, he])
    have hrest := ihlater fun e he => hkept e (List.mem_append_right _ he)
    rw [spawns_append, replay_append]
    exact (HostState.course_numbers starts outcome hinner).append hrest

theorem Called.numbers {message : Message} {s : HostState} {trace : List Event}
    (h : Called message s trace) {a : Address} (hkept : ∀ e ∈ trace, e.destructed? ≠ some a) :
    Numbers a (s.account a).nonce ((replay trace s).account a).nonce (spawns trace) := by
  obtain ⟨start, inner, outcome, hstart, hcourse, rfl⟩ := h
  have hinner := hcourse.numbers fun e he =>
    hkept e (by simp [HostState.course, HostState.visit, he])
  exact HostState.course_numbers hstart outcome hinner

/-- What each account counts grows in a call that returns by the number of creations that the account
starts in it, successful or not and at whatever depth. The plain ones among these get their addresses
from numbers of which no two are the same. -/
theorem call_counts_creations [Room] {message : Message} {w w' : World} {outcome : Outcome}
    (tidy : w.session.arena.Tidy) (room : w.session.arena.slots.length < Handle.places)
    (h : (Host.call message).run w = .ok outcome w') :
    ∃ frames, w'.session.spawns = w.session.spawns ++ frames ∧
      ∀ a account, w'.host.state.find? a = some account →
        let before := (w.host.state.find? a).elim 0 (·.nonce)
        account.nonce - before =
            (frames.filter fun f => f.kind.isCreate ∧ f.sender = a).length ∧
          ∃ nonces : List Int, nonces.Nodup ∧ (∀ n ∈ nonces, before ≤ n ∧ n < account.nonce) ∧
            nonces.map (Derivation.create a) =
              (frames.filter fun f => f.kind = .create ∧ f.sender = a).map (.ok ·.callee) := by
  have hon := Run.on_eq_ok_iff.2 h
  obtain ⟨trace, hreplays, hcalled⟩ := call_returns_called tidy room hon
  refine ⟨_, hreplays.spawns, fun a account hfind => ?_⟩
  intro before
  have hnumbers := hcalled.numbers (hreplays.not_destructed hon hfind)
  have hbefore : (w.host.state.account a).nonce = before := by
    show (w.host.state.account a).nonce = (w.host.state.find? a).elim 0 (·.nonce)
    unfold HostState.account
    cases w.host.state.find? a <;> rfl
  have hafter : w'.host.state.account a = account := by
    unfold HostState.account
    rw [hfind]
    rfl
  rw [← hreplays.state, hbefore, hafter] at hnumbers
  obtain ⟨hcount, nonces, hsorted, hbetween, hderived⟩ := hnumbers
  refine ⟨by omega, nonces, hsorted.imp fun hless => ?_, hbetween, hderived⟩
  omega

/-- Code that twice creates a contract whose first instruction fails. -/
def creatingCode : Bytes :=
  [0x60, 0xfd, 0x60, 0, 0x52, 0x60, 1, 0x60, 31, 0x60, 0, 0xf0, 0x60, 1, 0x60, 31, 0x60, 0, 0xf0]

section

attribute [local instance] Room.usual

/-- Both creations of the nested frame fail, and both count. -/
theorem call_counts_creations_failing :
    ∃ w' frames, (Host.call { gas := 50, destination := .ofNat 1 }).run (.calling creatingCode) =
        .ok { gasLeft := 42, createAddress := .ofNat 1 } w' ∧
      w'.session.spawns = (World.calling creatingCode).session.spawns ++ frames ∧
      (2 : Int) = (frames.filter fun f => f.kind.isCreate ∧ f.sender = .ofNat 3).length ∧
      ∃ nonces : List Int, nonces.Nodup ∧ (∀ n ∈ nonces, 0 ≤ n ∧ n < 2) ∧
        nonces.map (Derivation.create (.ofNat 3)) =
          (frames.filter fun f => f.kind = .create ∧ f.sender = .ofNat 3).map (.ok ·.callee) := by
  have hreturns : ((Host.call { gas := 50, destination := .ofNat 1 }).on
      (.calling creatingCode)).1 = .ok { gasLeft := 42, createAddress := .ofNat 1 } := by
    decide +kernel
  have hbefore : ((World.calling creatingCode).host.state.find? (.ofNat 3)).elim 0 (·.nonce) = 0 := by
    decide +kernel
  have hnonce : (((Host.call { gas := 50, destination := .ofNat 1 }).on
      (.calling creatingCode)).2.host.state.find? (.ofNat 3)).map (·.nonce) = some 2 := by
    decide +kernel
  have h := Run.run_of_ok hreturns
  obtain ⟨account, hfind, htwo⟩ := Option.map_eq_some_iff.1 hnonce
  obtain ⟨frames, hframes, hcounts⟩ :=
    call_counts_creations (Arena.Tidy.empty Host.baseKind) (by decide) h
  have haccount := hcounts (.ofNat 3) account hfind
  simp only [hbefore, htwo] at haccount
  exact ⟨_, frames, h, hframes, haccount⟩

end

end ContractHost
