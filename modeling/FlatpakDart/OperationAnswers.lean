/-
Answers that a listener understands.

An `Answer` is elements and the end, or an error.  `Conveys` says that the frames of an
operation are an answer, and that its listener completes the future once, with these
elements in their order or with an exception that has this message, and closes the port at
the last frame and not before; `Streams` says the same of a stream.

* `collect_conveys`, `first_conveys`, `readSingleString_conveys`, … — each kind of
  listener understands elements;
* `failed_conveys` — and an error frame that it has a branch for.
-/
import FlatpakDart.OperationListeners
import FlatpakDart.ReaderOperations
import FlatpakDart.WireText

open Glz Native FlatpakNc Dart PortListener

namespace OperationAnswers

/-! ### Answers -/

/-- Elements and the end, or an error frame. -/
inductive Answer (T : Type)
  | ended (elements : List T)
  | failed (disc : UInt8) (msg : CString)

/-- A kind of element: how one is posted, and what decodes it. -/
structure Channel (T β : Type) where
  post : T → List UInt8
  decode : Uint8List → ℕ → Option β
  /-- its strings are UTF-8, and those with a 32-bit length shorter than 4 GiB -/
  Sendable : T → Prop
  post_head : ∀ v, (post v).head? = some 0x01
  arrives : ∀ v, Sendable v → ∃ b, decode (.ofList (post v)) 1 = some b
  long : ∀ v, Sendable v → 1 < (post v).length

variable {T β ρ α : Type}

/-- The frames of an answer that ends with `last`. -/
def Answer.frames (c : Channel T β) (last : List UInt8) : Answer T → List (List UInt8)
  | .ended vs => vs.map c.post ++ [last]
  | .failed disc msg => [postFramedError disc msg]

def Answer.Sendable (c : Channel T β) : Answer T → Prop
  | .ended vs => ∀ v ∈ vs, c.Sendable v
  | .failed _ msg => GlazeCodec.Sendable msg

/-- What is heard of an answer: its elements one by one, or its message. -/
inductive Heard (c : Channel T β) : Answer T → Except FlatpakException (List β) → Prop
  | ended {vs : List T} {bs : List β}
      (h : List.Forall₂ (fun v b => c.decode (.ofList (c.post v)) 1 = some b) vs bs) :
      Heard c (.ended vs) (.ok bs)
  | failed {disc : UInt8} {msg : CString} {ex : FlatpakException}
      (h : Text.utf8Decode msg.bytes = some ex.message) : Heard c (.failed disc msg) (.error ex)

/-- The last frame, and no other, closes the port; the future was completed once. -/
def Settles (l : Callback ρ α) (frames : List (List UInt8)) (r : Except FlatpakException α) :
    Prop := ∃ o, l.Concludes frames o ∧ o.completed = [r]

/-- The frames are an answer; of any answer they can be that is sendable, something is
heard that has `P`. -/
structure Tells (c : Channel T β) (last : List UInt8) (frames : List (List UInt8))
    (P : Except FlatpakException (List β) → Prop) : Prop where
  answer : ∃ a : Answer T, frames = a.frames c last
  heard : ∀ a : Answer T, frames = a.frames c last → a.Sendable c → ∃ r, Heard c a r ∧ P r

/-- The future completes with what is heard. -/
def Conveys (c : Channel T β) (last : List UInt8) (elements : α → List β) (l : Callback ρ α)
    (frames : List (List UInt8)) : Prop :=
  Tells c last frames fun r => ∃ s, r = s.map elements ∧ Settles l frames s

/-- What a stream emits of what is heard. -/
def emits : Except FlatpakException (List β) → List (FlatpakInstallation.Event β)
  | .ok bs => bs.map .data ++ [.done]
  | .error ex => [.error ex, .done]

/-- The stream emits what is heard, and is done. -/
def Streams (c : Channel T β) (l : Listener (List UInt8) (List (FlatpakInstallation.Event β)))
    (frames : List (List UInt8)) : Prop :=
  Tells c [0xFF] frames fun r => l.Concludes frames (emits r)

/-- As many elements, or an error of the same kind. -/
def Answer.Like : Answer T → Answer T → Prop
  | .ended vs, .ended vs' => vs.length = vs'.length
  | .failed disc _, .failed disc' _ => disc = disc'
  | _, _ => False

/-- The last frame tells an end from an error. -/
theorem like_of_frames {c : Channel T β} {last : List UInt8} (hlast : last.length = 1)
    {a a' : Answer T} (h : a.frames c last = a'.frames c last) : a.Like a' := by
  have hlong : ∀ (vs : List T) disc msg,
      vs.map c.post ++ [last] ≠ [postFramedError disc msg] := fun vs disc msg heq => by
    have hlen := congrArg (fun l => (l.getLast?.getD []).length) heq
    simp [hlast, GlazeCodec.postFramedError_length] at hlen
    omega
  cases a with
  | ended vs =>
    cases a' with
    | ended vs' =>
      have hlen := congrArg List.length h
      simp only [Answer.frames, List.length_append, List.length_map] at hlen
      exact Nat.add_right_cancel hlen
    | failed disc msg => exact hlong vs disc msg h
  | failed disc msg =>
    cases a' with
    | ended vs' => exact hlong vs' disc msg h.symm
    | failed disc' msg' => exact (List.cons_eq_cons.mp (List.cons_eq_cons.mp h).1).1

/-- It is enough to look at the answers that are like the one that was given. -/
theorem Conveys.of_like {c : Channel T β} {last : List UInt8} (hlast : last.length = 1)
    {elements : α → List β} {l : Callback ρ α} (a : Answer T)
    (h : ∀ a' : Answer T, a'.Like a → a'.Sendable c →
      ∃ s, Heard c a' (s.map elements) ∧ Settles l (a'.frames c last) s) :
    Conveys c last elements l (a.frames c last) where
  answer := ⟨a, rfl⟩
  heard a' hframes hsendable := by
    obtain ⟨s, hheard, hsettles⟩ := h a' (like_of_frames hlast hframes.symm) hsendable
    exact ⟨_, hheard, s, rfl, hframes ▸ hsettles⟩

theorem Streams.of_like {c : Channel T β}
    {l : Listener (List UInt8) (List (FlatpakInstallation.Event β))} (a : Answer T)
    (h : ∀ a' : Answer T, a'.Like a → a'.Sendable c →
      ∃ r, Heard c a' r ∧ l.Concludes (a'.frames c [0xFF]) (emits r)) :
    Streams c l (a.frames c [0xFF]) where
  answer := ⟨a, rfl⟩
  heard a' hframes hsendable := by
    obtain ⟨r, hheard, hconcludes⟩ := h a' (like_of_frames rfl hframes.symm) hsendable
    exact ⟨r, hheard, hframes ▸ hconcludes⟩

/-! ### The kinds of elements -/

/-- What a decoder takes is longer than a discriminator, if it takes nothing of that. -/
theorem long_of_decodable {d : Decoder β} {w : List UInt8}
    (hnone : GlazeCodec.decode d (.ofList [0x01]) 1 = none) (h : Decodable d w) :
    1 < (postFramed 0x01 w).length := by
  cases w with
  | nil =>
    obtain ⟨b, hb⟩ := h.frame 0x01
    exact absurd (hb.symm.trans hnone) (by simp)
  | cons b w => simp [postFramed]

/-- Structs that `post_glaze` posts. -/
def Channel.glaze {T : Type} [Reflectable T] (d : Decoder β)
    (hnone : GlazeCodec.decode d (.ofList [0x01]) 1 = none)
    (h : ∀ v : T, WellFormed v → Decodable d (writeBinary v)) : Channel T β where
  post := InstallationReader.postGlaze
  decode := GlazeCodec.decode d
  Sendable := WellFormed
  post_head _ := rfl
  arrives v hv := (h v hv).frame 0x01
  long v hv := long_of_decodable hnone (h v hv)

def refs : Channel FpRef FlatpakRef :=
  .glaze GlazeCodec.readFlatpakRef rfl fun _ => GlazeCodec.readFlatpakRef_decodable

def apps : Channel InstalledApp FlatpakApplication :=
  .glaze GlazeCodec.readInstalledApp rfl fun _ => GlazeCodec.readInstalledApp_decodable

def remotes : Channel FlatpakRemoteInfo FlatpakRemote :=
  .glaze GlazeCodec.readFlatpakRemote rfl fun _ => GlazeCodec.readFlatpakRemote_decodable

def permissions : Channel FpMetadataEntry FlatpakPermission :=
  .glaze GlazeCodec.readMetadataEntry rfl fun _ => GlazeCodec.readMetadataEntry_decodable

def instances : Channel FpInstance FlatpakInstance :=
  .glaze GlazeCodec.readInstance rfl fun _ => GlazeCodec.readInstance_decodable

def installations : Channel FpInstallationInfo FlatpakInstallationInfo :=
  .glaze GlazeCodec.readInstallationInfo rfl fun _ => GlazeCodec.readInstallationInfo_decodable

/-- The one frame with all the entries. -/
def metadata : Channel (CppVector FpMetadataEntry) (List MetadataEntry) where
  post es := postFramed 0x01 (GlazeCodec.writeEntries es)
  decode := GlazeCodec.decodeRemoteMetadata
  Sendable es := ∀ v ∈ es.val, WellFormed v
  post_head _ := rfl
  arrives _ h := (GlazeCodec.readRemoteMetadata_decodable h).frame 0x01
  long _ h := long_of_decodable rfl (GlazeCodec.readRemoteMetadata_decodable h)

def strings : Channel CString String where
  post := InstallationReader.postString
  decode := GlazeCodec.decodeError
  Sendable := GlazeCodec.Sendable
  post_head _ := rfl
  arrives v h := by
    obtain ⟨text, htext⟩ := h.text
    exact ⟨text, (GlazeCodec.decodeError_text 0x01 h).trans htext⟩
  long v _ := by
    rw [InstallationReader.postString, GlazeCodec.postFramedError_length]
    omega

/-- An operation without elements. -/
def none : Channel Empty Empty where
  post := Empty.elim
  decode _ _ := .none
  Sendable _ := True
  post_head v := v.elim
  arrives v := v.elim
  long v := v.elim

/-! ### The kinds of listeners -/

theorem complete_start (locals : ρ) (r : Except FlatpakException α) :
    (Operation.start locals).complete r = ⟨locals, [r]⟩ := rfl

/-- A message that can be sent is heard. -/
theorem fail_eq (o : Operation ρ α) (exception : String → FlatpakException) (disc : UInt8)
    {msg : CString} {text : String} (hmsg : GlazeCodec.Sendable msg)
    (htext : Text.utf8Decode msg.bytes = some text) :
    o.fail exception (postFramedError disc msg) = (o.complete (.error (exception text)), true) := by
  rw [Operation.fail, GlazeCodec.decodeError_text disc hmsg, htext]

/-- An error frame that the listener has a branch for. -/
theorem failed_conveys {c : Channel T β} {last : List UInt8} (hlast : last.length = 1)
    {elements : α → List β} {l : Callback ρ α} {locals : ρ} {disc : UInt8}
    {exception : String → FlatpakException} (hmessage : ∀ text, (exception text).message = text)
    (hstart : l.start = .start locals)
    (hbranch : ∀ o {msg : List UInt8}, msg.head? = some disc →
      l.handle o msg = o.fail exception msg) (msg : CString) :
    Conveys c last elements l [postFramedError disc msg] := by
  refine Conveys.of_like hlast (.failed disc msg) ?_
  rintro (vs | ⟨disc, msg⟩) hlike hmsg
  · exact hlike.elim
  obtain rfl : disc = _ := hlike
  obtain ⟨text, htext⟩ := hmsg.text
  have hhandle := hbranch l.start (postFramedError_head disc msg)
  rw [fail_eq _ _ _ hmsg htext, hstart, complete_start] at hhandle
  refine ⟨.error (exception text), .failed (htext.trans (by rw [hmessage])), ?_⟩
  exact ⟨_, Listener.concludes_singleton (hstart ▸ hhandle), rfl⟩

/-! The error branches of the listeners. -/

theorem collect_branch (guarded : Bool) (decode : Uint8List → ℕ → Option β)
    (exception : String → FlatpakException) (o : Operation (List β) (List β)) {msg : List UInt8}
    (h : msg.head? = some 0x02) :
    (Operation.collect guarded decode exception).handle o msg = o.fail exception msg := by
  simp only [Operation.collect, h]

theorem first_branch (decode : Uint8List → ℕ → Option α) (exception : String → FlatpakException)
    (o : Operation Unit α) {msg : List UInt8} (h : msg.head? = some 0x02) :
    (Operation.first decode exception).handle o msg = o.fail exception msg := by
  simp only [Operation.first, h]

theorem await_branch {errors : UInt8 → Option (String → FlatpakException)} {disc : UInt8}
    {exception : String → FlatpakException} (herrors : errors disc = some exception)
    (o : Operation Unit Unit) {msg : List UInt8} (h : msg.head? = some disc) :
    (Operation.await errors).handle o msg = o.fail exception msg := by
  simp only [Operation.await, h, herrors]

theorem readSingleString_branch (o : Operation String String) {msg : List UInt8}
    (h : msg.head? = some 0x02) :
    FlatpakInstallation.readSingleString.handle o msg = o.fail .remote msg := by
  simp only [FlatpakInstallation.readSingleString, h]

theorem launch_notFound_branch (o : Operation (Option FlatpakInstance) FlatpakInstance)
    {msg : List UInt8} (h : msg.head? = some 0x02) :
    FlatpakInstallation.launch.handle o msg = o.fail .notFound msg := by
  simp only [FlatpakInstallation.launch, h]

theorem launch_failed_branch (o : Operation (Option FlatpakInstance) FlatpakInstance)
    {msg : List UInt8} (h : msg.head? = some 0x03) :
    FlatpakInstallation.launch.handle o msg = o.fail .launch msg := by
  simp only [FlatpakInstallation.launch, h]

theorem listenForResult_branch (o : Operation Unit Unit) {msg : List UInt8}
    (h : msg.head? = some 0x02) :
    Operation.listenForResult.handle o msg = o.fail .remote msg := by
  simp only [Operation.listenForResult, h]

/-- What arrives of elements that can be sent. -/
theorem elements_arrive {c : Channel T β} {vs : List T} (h : ∀ v ∈ vs, c.Sendable v) :
    ∃ bs, List.Forall₂ (fun v b => c.decode (.ofList (c.post v)) 1 = some b) vs bs := by
  induction vs with
  | nil => exact ⟨[], .nil⟩
  | cons v vs ih =>
    obtain ⟨b, hb⟩ := c.arrives v (h v List.mem_cons_self)
    obtain ⟨bs, hbs⟩ := ih fun u hu => h u (List.mem_cons_of_mem v hu)
    exact ⟨b :: bs, .cons hb hbs⟩

/-- A posted element is one that a listener can hear. -/
def Arrived (c : Channel T β) (msg : List UInt8) (b : β) : Prop :=
  msg.head? = some 0x01 ∧ 1 < msg.length ∧ c.decode (.ofList msg) 1 = some b

theorem arrived_map {c : Channel T β} {vs : List T} {bs : List β} (h : ∀ v ∈ vs, c.Sendable v)
    (hbs : List.Forall₂ (fun v b => c.decode (.ofList (c.post v)) 1 = some b) vs bs) :
    List.Forall₂ (Arrived c) (vs.map c.post) bs := by
  induction hbs with
  | nil => exact .nil
  | cons hb _ ih =>
    refine .cons ⟨c.post_head _, c.long _ (h _ List.mem_cons_self), hb⟩ ?_
    exact ih fun u hu => h u (List.mem_cons_of_mem _ hu)

theorem collect_hears (c : Channel T β) (guarded : Bool) (exception : String → FlatpakException)
    (o : Operation (List β) (List β)) (msg : List UInt8) (b : β) (h : Arrived c msg b) :
    (Operation.collect guarded c.decode exception).handle o msg =
      ({ o with locals := o.locals ++ [b] }, false) := by
  obtain ⟨hhead, hlong, hdecode⟩ := h
  simp [Operation.collect, hhead, hdecode, Nat.not_le.mpr hlong]

theorem foldl_locals (o : Operation (List β) α) (bs : List β) :
    bs.foldl (fun o b => { o with locals := o.locals ++ [b] }) o =
      { o with locals := o.locals ++ bs } := by
  induction bs generalizing o with
  | nil => simp
  | cons b bs ih => simp [ih]

/-- A list is gathered up to the sentinel. -/
theorem collect_conveys (c : Channel T β) (guarded : Bool)
    (exception : String → FlatpakException) (vs : List T) :
    Conveys c [0xFF] id (Operation.collect guarded c.decode exception)
      (vs.map c.post ++ [[0xFF]]) := by
  refine Conveys.of_like rfl (.ended vs) ?_
  rintro (vs | ⟨disc, msg⟩) hlike hvs
  · obtain ⟨bs, hbs⟩ := elements_arrive hvs
    have hpass := Listener.Passes.of_forall₂ (collect_hears c guarded exception)
      (arrived_map hvs hbs) (Operation.start [])
    rw [foldl_locals] at hpass
    exact ⟨.ok bs, .ended hbs, _, hpass.concludes rfl, rfl⟩
  · exact hlike.elim

/-- The elements may be made one by one as they are posted. -/
theorem collect_map_conveys {X : Type} (c : Channel T β) (guarded : Bool)
    (exception : String → FlatpakException) (f : X → T) (xs : List X) :
    Conveys c [0xFF] id (Operation.collect guarded c.decode exception)
      (xs.map (fun x => c.post (f x)) ++ [[0xFF]]) := by
  have h := collect_conveys c guarded exception (xs.map f)
  rwa [List.map_map] at h

theorem notFound_message (text : String) : (FlatpakException.notFound text).message = text := rfl

theorem remote_message (text : String) : (FlatpakException.remote text).message = text := rfl

theorem launch_message (text : String) : (FlatpakException.launch text).message = text := rfl

theorem stop_message (text : String) : (FlatpakException.stop text).message = text := rfl

theorem collect_failed_conveys (c : Channel T β) (guarded : Bool)
    {exception : String → FlatpakException} (hmessage : ∀ text, (exception text).message = text)
    (msg : CString) :
    Conveys c [0xFF] id (Operation.collect guarded c.decode exception)
      [postFramedError 0x02 msg] :=
  failed_conveys rfl hmessage rfl (collect_branch guarded c.decode exception) msg

theorem first_failed_conveys (c : Channel T β) {exception : String → FlatpakException}
    (hmessage : ∀ text, (exception text).message = text) (msg : CString) :
    Conveys c [0xFF] (fun b => [b]) (Operation.first c.decode exception)
      [postFramedError 0x02 msg] :=
  failed_conveys rfl hmessage rfl (first_branch c.decode exception) msg

theorem readSingleString_failed_conveys (msg : CString) :
    Conveys strings [0xFF] (fun b => [b]) FlatpakInstallation.readSingleString
      [postFramedError 0x02 msg] :=
  failed_conveys rfl remote_message rfl readSingleString_branch msg

/-- One element that is kept, or completes the future, before the sentinel. -/
theorem single_conveys {c : Channel T β} {l : Callback ρ β} (v : T)
    (h : ∀ v b, c.Sendable v → c.decode (.ofList (c.post v)) 1 = some b →
      ∃ o o', l.handle l.start (c.post v) = (o, false) ∧ l.handle o [0xFF] = (o', true) ∧
        o'.completed = [.ok b]) :
    Conveys c [0xFF] (fun b => [b]) l [c.post v, [0xFF]] := by
  refine Conveys.of_like rfl (.ended [v]) ?_
  rintro (vs | ⟨disc, msg⟩) hlike hvs
  · obtain ⟨v, rfl⟩ := List.length_eq_one_iff.mp hlike
    have hv := hvs v List.mem_cons_self
    obtain ⟨b, hb⟩ := c.arrives v hv
    obtain ⟨o, o', hfirst, hlast, hcompleted⟩ := h v b hv hb
    have hpass : l.Passes l.start [c.post v] o := .cons hfirst (.nil _)
    exact ⟨.ok b, .ended (.cons hb .nil), o', hpass.concludes hlast, hcompleted⟩
  · exact hlike.elim

/-- One element completes the future, the sentinel closes the port. -/
theorem first_conveys (c : Channel T β) (exception : String → FlatpakException) (v : T) :
    Conveys c [0xFF] (fun b => [b]) (Operation.first c.decode exception) [c.post v, [0xFF]] := by
  refine single_conveys v fun v b hv hb => ⟨⟨(), [.ok b]⟩, ⟨(), [.ok b]⟩, ?_, rfl, rfl⟩
  simp [Operation.first, c.post_head, c.long v hv, hb, Operation.start, Operation.complete]

theorem strings_decode : strings.decode = GlazeCodec.decodeError := rfl

/-- The string that was read is returned at the sentinel. -/
theorem readSingleString_conveys (s : CString) :
    Conveys strings [0xFF] (fun b => [b]) FlatpakInstallation.readSingleString
      [strings.post s, [0xFF]] := by
  refine single_conveys s fun s b _ hb => ⟨⟨b, []⟩, ⟨b, [.ok b]⟩, ?_, rfl, rfl⟩
  rw [FlatpakInstallation.readSingleString, ← strings_decode]
  simp [strings.post_head, hb, Operation.start]

theorem instances_decode : instances.decode = GlazeCodec.decodeInstance := rfl

/-- A launch keeps its instance until the sentinel. -/
theorem launched_conveys (inst : FpInstance) :
    Conveys instances [0xFF] (fun b => [b]) FlatpakInstallation.launch
      [instances.post inst, [0xFF]] := by
  refine single_conveys inst fun inst b hinst hb => ⟨⟨some b, []⟩, ⟨some b, [.ok b]⟩, ?_, rfl, rfl⟩
  rw [FlatpakInstallation.launch, ← instances_decode]
  simp [instances.post_head, instances.long inst hinst, hb, Operation.start]

/-- The end alone completes a future without a value. -/
theorem ended_conveys {l : Callback Unit Unit} {last : List UInt8} (hlast : last.length = 1)
    (h : l.handle l.start last = (⟨(), [.ok ()]⟩, true)) :
    Conveys none last (fun () => []) l [last] := by
  refine Conveys.of_like hlast (.ended []) ?_
  rintro (vs | ⟨disc, msg⟩) hlike -
  · obtain rfl := List.length_eq_zero_iff.mp hlike
    exact ⟨.ok (), .ended .nil, _, Listener.concludes_singleton h, rfl⟩
  · exact hlike.elim

/-! ### The stream -/

theorem stream_hears (events : List (FlatpakInstallation.Event FlatpakRef)) (msg : List UInt8)
    (b : FlatpakRef) (h : Arrived refs msg b) :
    FlatpakInstallation.listRemoteApps.handle events msg = (events ++ [.data b], false) := by
  obtain ⟨hhead, hlong, hdecode⟩ := h
  have href : GlazeCodec.decodeFlatpakRef (.ofList msg) 1 = some b := hdecode
  simp [FlatpakInstallation.listRemoteApps, hhead, hlong, href]

theorem foldl_data (events : List (FlatpakInstallation.Event β)) (bs : List β) :
    bs.foldl (fun events b => events ++ [.data b]) events = events ++ bs.map .data := by
  induction bs generalizing events with
  | nil => simp
  | cons b bs ih => simp [ih]

theorem ended_streams (vs : List FpRef) :
    Streams refs FlatpakInstallation.listRemoteApps (vs.map refs.post ++ [[0xFF]]) := by
  refine Streams.of_like (.ended vs) ?_
  rintro (vs | ⟨disc, msg⟩) hlike hvs
  · obtain ⟨bs, hbs⟩ := elements_arrive hvs
    have hpass := Listener.Passes.of_forall₂ stream_hears (arrived_map hvs hbs) []
    rw [foldl_data] at hpass
    exact ⟨.ok bs, .ended hbs, hpass.concludes rfl⟩
  · exact hlike.elim

theorem failed_streams (msg : CString) :
    Streams refs FlatpakInstallation.listRemoteApps [postFramedError 0x02 msg] := by
  refine Streams.of_like (.failed 0x02 msg) ?_
  rintro (vs | ⟨disc, msg⟩) hlike hmsg
  · exact hlike.elim
  obtain rfl : disc = 0x02 := hlike
  obtain ⟨text, htext⟩ := hmsg.text
  refine ⟨.error (.notFound text), .failed htext, Listener.concludes_singleton ?_⟩
  have herr := (GlazeCodec.decodeError_text 0x02 hmsg).trans htext
  simp [FlatpakInstallation.listRemoteApps, herr, emits]

end OperationAnswers
