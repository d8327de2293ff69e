/-
A config that does not decode (`native/src/user_remote_bridge.cpp`).

`decode_config` does not look at what `read_binary` returns, and a buffer that is refused
becomes a config that changes nothing.

* `modify_malformed` — so a modify with such a buffer succeeds, with nothing modified;
* `onlyDecoded_iff` — nothing but a decoded config is written, exactly if the buffer
  decodes, or there is no remote to modify.
-/
import FlatpakDart.RemoteModify

open Glz Native Libflatpak RemoteBridge RemoteManager RemoteModify

namespace RemoteConfigGuard

/-! ### What is decoded -/

/-- No config is read off the buffer. -/
def Malformed (buf : List UInt8) : Prop := readValue RemoteConfig buf = none

/-- A buffer that was cut anywhere is malformed. -/
theorem malformed_of_cut {buf : List UInt8} {cfg : RemoteConfig} (h : buf <+: writeBinary cfg)
    (hcut : buf ≠ writeBinary cfg) : Malformed buf :=
  (readValue_reads cfg).cut buf h hcut

/-- It is taken for an empty config. -/
theorem decodeConfig_malformed {buf : List UInt8} (h : Malformed buf) : decodeConfig buf = {} := by
  rw [decodeConfig, readBinary, h, ite_self]

theorem applyConfig_empty (remote : Remote) : applyConfig remote {} = remote := rfl

theorem decodeConfig_of_readValue {buf rest : List UInt8} {cfg : RemoteConfig}
    (h : readValue RemoteConfig buf = some (cfg, rest)) : decodeConfig buf = cfg := by
  have hnonempty : buf ≠ [] := by
    rintro rfl
    cases h
  rw [decodeConfig, if_pos hnonempty, readBinary, h]

/-! ### The writes of a call -/

/-- A function of the bridge that is given a config. -/
inductive Call
  | add (ifNotExists : Bool)
  | modify

/-- A write: the function of libflatpak, and the remote it is given. -/
inductive Write
  | addRemote (remote : Remote) (ifNotExists : Bool)
  | modifyRemote (remote : Remote)

def Write.remote : Write → Remote
  | .addRemote remote _ => remote
  | .modifyRemote remote => remote

/-- The arguments of a call, and the state it is made in. -/
structure Request (δ : Type) where
  b : Handle δ
  name : CString
  buf : List UInt8
  env : Environment
  w : World δ

variable {δ : Type}

/-- The remote that the config is applied to, or the message of an error. -/
def base (r : Request δ) : Call → Except CString Remote
  | .add _ => .ok { name := r.name }
  | .modify => getRemoteByName r.env.get (r.w r.b.installation) r.name

/-- The write of a call. -/
def write : Call → Remote → Write
  | .add ifNotExists, remote => .addRemote remote ifNotExists
  | .modify, remote => .modifyRemote remote

/-- A call gets as far as its write, or ends with an error before it. -/
def writeOf (r : Request δ) (call : Call) : Except CString Write :=
  (base r call).map fun remote => write call (applyConfig remote (decodeConfig r.buf))

/-- The writes that are made. -/
def writes (r : Request δ) (call : Call) : List Write := (writeOf r call).toOption.toList

theorem writes_of_base {r : Request δ} {call : Call} {remote : Remote}
    (h : base r call = .ok remote) :
    writes r call = [write call (applyConfig remote (decodeConfig r.buf))] := by
  rw [writes, writeOf, h]
  rfl

theorem writes_of_error {r : Request δ} {call : Call} {msg : CString}
    (h : base r call = .error msg) : writes r call = [] := by
  rw [writes, writeOf, h]
  rfl

theorem write_remote (call : Call) (remote : Remote) : (write call remote).remote = remote := by
  cases call <;> rfl

variable [DecidableEq δ]

/-- What libflatpak makes of a write. -/
def Write.result (r : Request δ) : Write → Except CString Remotes
  | .addRemote remote ifNotExists =>
    Libflatpak.addRemote r.env.call (r.w r.b.installation) remote ifNotExists
  | .modifyRemote remote => Libflatpak.modifyRemote r.env.call (r.w r.b.installation) remote

/-- The call, by its write. -/
def perform (r : Request δ) (call : Call) : World δ × List (List UInt8) :=
  match writeOf r call with
  | .error msg => (r.w, [postError msg])
  | .ok write => r.b.finish r.w (write.result r)

theorem perform_add (r : Request δ) (ifNotExists : Bool) :
    perform r (.add ifNotExists) = flatpakUserRemoteAdd r.b r.name r.buf ifNotExists r.env r.w :=
  rfl

theorem perform_modify (r : Request δ) :
    perform r .modify = flatpakUserRemoteModify r.b r.name r.buf r.env r.w := by
  rw [perform, flatpakUserRemoteModify, writeOf, base]
  cases getRemoteByName r.env.get (r.w r.b.installation) r.name <;> rfl

/-! ### What is applied -/

/-- Nothing but a decoded config is applied. -/
structure OnlyDecoded (r : Request δ) (call : Call) : Prop where
  /-- any other buffer is answered by an error, and nothing is written -/
  refused : Malformed r.buf → (∃ msg, (perform r call).2 = [postError msg]) ∧ writes r call = []
  applied : ∀ cfg rest, readValue RemoteConfig r.buf = some (cfg, rest) → ∀ write ∈ writes r call,
    ∃ remote, base r call = .ok remote ∧ write.remote = applyConfig remote cfg

/-- **A modify with a malformed buffer** stores the remote as it is, and succeeds if that
does. -/
theorem modify_malformed (r : Request δ) {remote : Remote} (h : Malformed r.buf)
    (hget : base r .modify = .ok remote) :
    perform r .modify =
      r.b.finish r.w (Libflatpak.modifyRemote r.env.call (r.w r.b.installation) remote) := by
  have hwrite : writeOf r .modify = .ok (.modifyRemote remote) := by
    rw [writeOf, hget, decodeConfig_malformed h, Except.map, applyConfig_empty, write]
  rw [perform, hwrite]
  rfl

theorem perform_of_error {r : Request δ} {call : Call} {msg : CString}
    (h : base r call = .error msg) : perform r call = (r.w, [postError msg]) := by
  rw [perform, writeOf, h]
  rfl

/-- **When nothing but a decoded config is applied**: if the buffer decodes, or if there is
no remote to modify. -/
theorem onlyDecoded_iff (r : Request δ) (call : Call) :
    OnlyDecoded r call ↔ ¬ Malformed r.buf ∨ ∃ msg, base r call = .error msg := by
  constructor
  · intro h
    by_cases hbuf : Malformed r.buf
    · cases hbase : base r call with
      | error msg => exact .inr ⟨msg, rfl⟩
      | ok remote =>
        have hnone := (h.refused hbuf).2
        rw [writes_of_base hbase] at hnone
        cases hnone
    · exact .inl hbuf
  · intro h
    refine ⟨fun hbuf => ?_, fun cfg rest hread write hwrite => ?_⟩
    · obtain ⟨msg, hbase⟩ := h.resolve_left (not_not.mpr hbuf)
      exact ⟨⟨msg, congrArg Prod.snd (perform_of_error hbase)⟩, writes_of_error hbase⟩
    · cases hbase : base r call with
      | error msg =>
        rw [writes_of_error hbase] at hwrite
        cases hwrite
      | ok remote =>
        rw [writes_of_base hbase, decodeConfig_of_readValue hread] at hwrite
        obtain rfl := List.mem_singleton.mp hwrite
        exact ⟨remote, rfl, write_remote call _⟩

/-- A modify of the only remote, with a config whose last byte was cut. -/
def cutRequest : Request Unit where
  b := ⟨()⟩
  name := filtered.name
  buf := (Dart.GlazeCodec.encodeRemoteConfig someSet).dropLast
  env := smooth
  w _ := [filtered]

/-- **A modify with a cut config is answered with success.** -/
theorem modify_cut :
    Malformed cutRequest.buf ∧
      flatpakUserRemoteModify cutRequest.b cutRequest.name cutRequest.buf cutRequest.env
        cutRequest.w = (Function.update cutRequest.w () [filtered], [postOk]) ∧
      ¬ OnlyDecoded cutRequest .modify := by
  have hencode := encodeRemoteConfig_eq someSet someSet_fits
  have hmalformed : Malformed cutRequest.buf := by
    have hcut : cutRequest.buf <+: writeBinary (configOf someSet someSet_fits) := by
      rw [← hencode]
      exact List.dropLast_prefix _
    refine malformed_of_cut hcut fun hsame => ?_
    rw [← hencode] at hsame
    have hlength := congrArg List.length hsame
    rw [cutRequest, List.length_dropLast] at hlength
    revert hlength
    decide +kernel
  have hget : base cutRequest .modify = .ok filtered := by
    simp [base, cutRequest, getRemoteByName, smooth]
  refine ⟨hmalformed, ?_, fun h => ?_⟩
  · rw [← perform_modify, modify_malformed cutRequest hmalformed hget]
    simp [cutRequest, modifyRemote, smooth, Handle.finish]
  · have hnone := (h.refused hmalformed).2
    rw [writes_of_base hget] at hnone
    cases hnone

end RemoteConfigGuard
