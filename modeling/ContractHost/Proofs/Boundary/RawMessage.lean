import ContractHost.Message

/-!
# Messages at the native boundary

A message and its raw form tell the same: whatever crosses the boundary is the message that was sent, and
what came across can be sent on. Likewise a number that fits its field has exactly one raw form, and a
transaction's context can be read back from its own.

* `Message.toRaw_eq_ok_iff`: the raw form of a message is the one that stands for it.
* `Message.sendable_iff`: which messages have a raw form.
-/

namespace ContractHost

/-- A field holds exactly the numbers that are read back from it. -/
theorem field_eq_some_iff {ν ρ : Type} (fits : ν → Prop) [DecidablePred fits] {write : ν → ρ}
    {read : ρ → ν} (hwrite : ∀ n, fits n → read (write n) = n) (hread : ∀ raw, write (read raw) = raw)
    (hfits : ∀ raw, fits (read raw)) {n : ν} {raw : ρ} :
    (if fits n then some (write n) else none) = some raw ↔ read raw = n := by
  constructor
  · intro h
    split at h
    · rename_i hn
      cases h
      exact hwrite n hn
    · cases h
  · rintro rfl
    rw [if_pos (hfits raw), hread]

theorem uint32?_eq_some_iff {n : Nat} {raw : UInt32} : uint32? n = some raw ↔ raw.toNat = n :=
  field_eq_some_iff (· < twoTo 32) (fun _ h => UInt32.toNat_ofNat_of_lt' h)
    (fun _ => UInt32.ofNat_toNat) fun raw => raw.toNat_lt

theorem int32?_eq_some_iff {n : Int} {raw : Int32} : int32? n = some raw ↔ raw.toInt = n :=
  field_eq_some_iff (fun n : Int => -twoTo 31 ≤ n ∧ n < twoTo 31)
    (fun _ h => Int32.toInt_ofInt_of_le h.1 h.2) Int32.ofInt_toInt
    fun raw => ⟨raw.le_toInt, raw.toInt_lt⟩

theorem int64?_eq_some_iff {n : Int} {raw : Int64} : int64? n = some raw ↔ raw.toInt = n :=
  field_eq_some_iff (fun n : Int => -twoTo 63 ≤ n ∧ n < twoTo 63)
    (fun _ h => Int64.toInt_ofInt_of_le h.1 h.2) Int64.ofInt_toInt
    fun raw => ⟨raw.le_toInt, raw.toInt_lt⟩

theorem uint64?_eq_some_iff {n : Int} {raw : UInt64} :
    uint64? n = some raw ↔ (raw.toNat : Int) = n := by
  have hwrite (n : Int) (h : 0 ≤ n ∧ n < twoTo 64) : ((UInt64.ofNat n.toNat).toNat : Int) = n := by
    rw [UInt64.toNat_ofNat_of_lt' ((Int.toNat_lt h.1).2 h.2)]
    exact Int.toNat_of_nonneg h.1
  have hread (raw : UInt64) : UInt64.ofNat (raw.toNat : Int).toNat = raw := by
    rw [Int.toNat_natCast, UInt64.ofNat_toNat]
  exact @field_eq_some_iff Int UInt64 (fun n => 0 ≤ n ∧ n < twoTo 64) _ (fun n => .ofNat n.toNat)
    (fun raw => raw.toNat) hwrite hread
    (fun raw => ⟨Int.natCast_nonneg _, Int.ofNat_lt.2 raw.toNat_lt⟩) n raw

theorem field_fits_iff {ρ : Type} {fits : Prop} [Decidable fits] {value : ρ} :
    (∃ raw, (if fits then some value else none) = some raw) ↔ fits := by
  split
  · rename_i h
    exact ⟨fun _ => h, fun _ => ⟨_, rfl⟩⟩
  · rename_i h
    refine ⟨fun hraw => ?_, fun hfits => absurd hfits h⟩
    obtain ⟨raw, hraw⟩ := hraw
    cases hraw

theorem int32?_fits_iff {n : Int} :
    (∃ raw, int32? n = some raw) ↔ -twoTo 31 ≤ n ∧ n < twoTo 31 :=
  field_fits_iff

theorem int64?_fits_iff {n : Int} :
    (∃ raw, int64? n = some raw) ↔ -twoTo 63 ≤ n ∧ n < twoTo 63 :=
  field_fits_iff

theorem uint64?_fits_iff {n : Int} : (∃ raw, uint64? n = some raw) ↔ 0 ≤ n ∧ n < twoTo 64 :=
  field_fits_iff

theorem CallKind.ofCode?_eq_some_iff {n : Nat} {kind : CallKind} :
    ofCode? n = some kind ↔ kind.code = n := by
  constructor
  · intro h
    have hcode := List.find?_some h
    exact Int.ofNat.inj (of_decide_eq_true hcode)
  · rintro rfl
    cases kind <;> rfl

theorem TxContext.toContext_of_toRaw {tx : TxContext} {raw : RawTxContext} (h : tx.toRaw = .ok raw) :
    raw.toContext = tx := by
  unfold toRaw at h
  cases hnumber : int64? tx.blockNumber with
  | none => simp [hnumber, fitting, bind, Except.bind] at h
  | some number =>
    cases htimestamp : int64? tx.blockTimestamp with
    | none => simp [hnumber, htimestamp, fitting, bind, Except.bind] at h
    | some timestamp =>
      cases hlimit : int64? tx.blockGasLimit with
      | none => simp [hnumber, htimestamp, hlimit, fitting, bind, Except.bind] at h
      | some limit =>
        simp only [hnumber, htimestamp, hlimit, fitting, bind, Except.bind, pure, Except.pure] at h
        cases h
        unfold RawTxContext.toContext
        rw [int64?_eq_some_iff.1 hnumber, int64?_eq_some_iff.1 htimestamp,
          int64?_eq_some_iff.1 hlimit]

theorem Message.toRaw_eq_ok_iff {message : Message} {raw : RawMessage} :
    message.toRaw = .ok raw ↔ raw.toMessage = .ok message := by
  constructor
  · intro h
    unfold toRaw at h
    cases hflags : uint32? message.flags with
    | none => simp [hflags, fitting, bind, Except.bind] at h
    | some flags =>
      cases hdepth : int32? message.depth with
      | none => simp [hflags, hdepth, fitting, bind, Except.bind] at h
      | some depth =>
        cases hgas : int64? message.gas with
        | none => simp [hflags, hdepth, hgas, fitting, bind, Except.bind] at h
        | some gas =>
          simp only [hflags, hdepth, hgas, fitting, bind, Except.bind, pure, Except.pure] at h
          cases h
          have hkind : CallKind.ofCode? (UInt32.ofNat message.kind.code).toNat =
              some message.kind := by
            cases message.kind <;> rfl
          simp only [RawMessage.toMessage, hkind, uint32?_eq_some_iff.1 hflags,
            int32?_eq_some_iff.1 hdepth, int64?_eq_some_iff.1 hgas]
  · intro h
    unfold RawMessage.toMessage at h
    split at h
    · cases h
    · rename_i kind hkind
      cases h
      have hcode : UInt32.ofNat kind.code = raw.kind := by
        rw [CallKind.ofCode?_eq_some_iff.1 hkind, UInt32.ofNat_toNat]
      simp only [toRaw, uint32?_eq_some_iff.2 rfl, int32?_eq_some_iff.2 rfl,
        int64?_eq_some_iff.2 rfl, fitting, bind, Except.bind, pure, Except.pure, hcode]

theorem Message.toRaw_input {message : Message} {raw : RawMessage} (h : message.toRaw = .ok raw) :
    raw.input = message.input := by
  have hmessage := toRaw_eq_ok_iff.1 h
  unfold RawMessage.toMessage at hmessage
  split at hmessage <;> cases hmessage
  rfl

/-- A message can be sent if three of its numbers fit. -/
theorem Message.sendable_iff {message : Message} :
    (∃ raw, message.toRaw = .ok raw) ↔
      (∃ flags, uint32? message.flags = some flags) ∧ (∃ depth, int32? message.depth = some depth) ∧
        ∃ gas, int64? message.gas = some gas := by
  constructor
  · rintro ⟨raw, hraw⟩
    have hmessage := toRaw_eq_ok_iff.1 hraw
    unfold RawMessage.toMessage at hmessage
    split at hmessage
    · cases hmessage
    · cases hmessage
      exact ⟨⟨_, uint32?_eq_some_iff.2 rfl⟩, ⟨_, int32?_eq_some_iff.2 rfl⟩,
        ⟨_, int64?_eq_some_iff.2 rfl⟩⟩
  · rintro ⟨⟨flags, hflags⟩, ⟨depth, hdepth⟩, ⟨gas, hgas⟩⟩
    refine ⟨{ kind := UInt32.ofNat message.kind.code, flags, depth, gas
              destination := message.destination, sender := message.sender
              input := message.input, value := message.value, salt := message.salt }, ?_⟩
    simp [toRaw, hflags, hdepth, hgas, fitting, bind, Except.bind, pure, Except.pure]

end ContractHost
