import ModbusPp.Client.Authentication
import ModbusPp.Client.Server
import ModbusPp.Discovery.Scanner
import ModbusPp.Pipeline.Pipeline
import ModbusPp.PubSub.DeadBand
import ModbusPp.Transport.TcpTransport

/-! What the library hands to a transport. Five components send frames, and a TCP peer
takes a frame off its stream by the length in bytes 4 and 5. Where the frame is made by
`wrap_tcp` these are its length; in a bare extended PDU they are its correlation id. -/

namespace ModbusPp

open Foundation TransportEvent

/-! ### Frames and their messages -/

/-- A component that sends. -/
inductive Sender
  | client
  | scanner
  | server
  | pipeline
  | publisher
  deriving DecidableEq

/-- What a component makes a frame of. -/
inductive Message
  | request (client : Client) (unit : UInt8) (pdu : PDU)
  | probe (unitId : UInt8)
  | discover (unitId : UInt8)
  | response (unitId : UInt8) (pdu : PDU) (txnId : UInt16)
  | submission (corrId : CorrelationID) (pdu : PDU)
  | notification (notif : EventNotification)

namespace Message

def sender : Message → Sender
  | request _ _ _ => .client
  | probe _ | discover _ => .scanner
  | response _ _ _ => .server
  | submission _ _ => .pipeline
  | notification _ => .publisher

def pdu : Message → PDU
  | request _ _ pdu => pdu
  | probe _ => .makeStandard .readHoldingRegisters [0x00, 0x00, 0x00, 0x01]
  | discover _ => .makeExtended { extFunctionCode := .discover } []
  | response _ pdu _ => pdu
  | submission corrId pdu => Pipeline.toSend corrId pdu
  | notification notif =>
    .makeExtended { extFunctionCode := .eventNotification, timestamp := some notif.timestamp }
      notif.payload

/-- The frame that is handed to the transport. -/
def frame : Message → List UInt8
  | request client unit pdu => client.requestFrame unit pdu
  | probe unitId => Scanner.probeFrame unitId
  | discover unitId => Scanner.discoverFrame unitId
  | response unitId pdu txnId => FrameCodec.wrapTcp unitId pdu txnId
  | submission corrId pdu => (Pipeline.toSend corrId pdu).serialize
  | notification notif => notif.frame

/-- The length field of the frame, if the PDU is not too long for one, holds its length. -/
def Delimited : Message → Prop
  | submission corrId pdu => (Pipeline.toSend corrId pdu).serialize.length = 6 + corrId.toNat
  | notification _ => False
  | _ => True

end Message

/-- However a socket cuts the stream, `receive` takes the frame off its front, whole. -/
def Receivable (frame : List UInt8) : Prop :=
  ∀ (s : TcpTransport) (rest : List UInt8), s.Readable → s.rx = frame ++ rest →
    ∃ s', s.receive = (.value frame, s') ∧ s'.rx = rest

theorem receivable_iff {frame : List UInt8} : Receivable frame ↔ TcpTransport.Framed frame := by
  constructor
  · intro h
    have hreadable : TcpTransport.Readable { rx := frame } :=
      ⟨rfl, List.forall_mem_nil _, List.forall_mem_nil _⟩
    obtain ⟨s', hreceive, -⟩ := h { rx := frame } [] hreadable (List.append_nil frame).symm
    exact TcpTransport.framed_of_receive hreceive
  · intro h s rest hreadable hrx
    obtain ⟨s', hreceive, -, hrest⟩ := TcpTransport.receive_framed hreadable h hrx
    exact ⟨s', hreceive, hrest⟩

theorem lengthField_extended {pdu : PDU} {hdr : FrameHeader} (h : pdu.extHeader = some hdr) :
    FrameCodec.lengthField pdu.serialize = hdr.correlationId := by
  rw [PDU.serialize_extended h]
  exact word_bytes hdr.correlationId

theorem framed_extended_iff {pdu : PDU} {hdr : FrameHeader} (h : pdu.extHeader = some hdr) :
    TcpTransport.Framed pdu.serialize ↔ pdu.serialize.length = 6 + hdr.correlationId.toNat := by
  rw [TcpTransport.Framed, lengthField_extended h]
  refine and_iff_right ?_
  rw [PDU.serialize_extended h]
  simp only [List.length_cons, List.length_append]
  omega

theorem toSend_header (corrId : CorrelationID) (request : PDU) :
    ∃ hdr, (Pipeline.toSend corrId request).extHeader = some hdr ∧ hdr.correlationId = corrId := by
  unfold Pipeline.toSend
  split
  · exact ⟨_, rfl, rfl⟩
  · exact ⟨_, rfl, rfl⟩

namespace Message

/-- As long as the length field can hold it, a message can be received if and only if it
is delimited. -/
theorem receivable_iff_delimited {m : Message} (h : m.pdu.serialize.length ≤ 65534) :
    Receivable m.frame ↔ m.Delimited := by
  rw [receivable_iff]
  cases m with
  | request client unit pdu => exact iff_of_true (TcpTransport.framed_wrapTcp _ _ h) trivial
  | probe unitId => exact iff_of_true (TcpTransport.framed_wrapTcp _ _ h) trivial
  | discover unitId => exact iff_of_true (TcpTransport.framed_wrapTcp _ _ h) trivial
  | response unitId pdu txnId => exact iff_of_true (TcpTransport.framed_wrapTcp _ _ h) trivial
  | submission corrId pdu =>
    obtain ⟨hdr, hhdr, rfl⟩ := toSend_header corrId pdu
    exact framed_extended_iff hhdr
  | notification notif =>
    refine iff_of_false (fun hframed => ?_) fun hfalse => hfalse
    have hhdr : (notification notif).pdu.extHeader = some _ := rfl
    have hlen := (framed_extended_iff hhdr).mp hframed
    have hsize := hframed.1
    change (notification notif).pdu.serialize.length = 6 + 0 at hlen
    change 7 ≤ (notification notif).pdu.serialize.length at hsize
    omega

end Message

/-! ### Frames on the wire -/

variable {τ σ : Type}

/-- A world with the record of its use. -/
def World.traced (W : World τ) : World (τ × List TransportEvent) where
  toTransport := W.toTransport.traced
  isConnected s := W.isConnected s.1
  now s := ((W.now s.1).1, (W.now s.1).2, s.2)

/-- A source beside the record. -/
def DataSource.traced (source : DataSource τ) : DataSource (τ × List TransportEvent) where
  start := source.start
  count := source.count
  reader s := do
    let (values, net) ← source.reader s.1
    return (values, net, s.2)
  lastValues := source.lastValues
  hasBaseline := source.hasBaseline

def Publisher.traced (p : Publisher τ) : Publisher (τ × List TransportEvent) where
  sources := p.sources.map DataSource.traced
  subscriptions := p.subscriptions
  nextSubId := p.nextSubId

/-- A component has handed a frame to the transport in a call that returned. -/
inductive Handed (W : World τ) : Sender → List UInt8 → Prop
  | transact {client : Client} {net : τ} {unit : UInt8} {request : PDU} {result : Result PDU}
    {s' : Running (τ × List TransportEvent)} {frame : List UInt8}
    (h : Client.transact W.traced.toTransport unit request ⟨client, net, []⟩ = .ok (result, s'))
    (hframe : frame ∈ sentFrames s'.net.2) : Handed W .client frame
  | probe {config : ScannerConfig} {unitId : UInt8} {net : τ} {result : Result DeviceInfo}
    {net' : τ × List TransportEvent} {frame : List UInt8}
    (h : Scanner.probe W.traced config unitId (net, []) = .ok (result, net'))
    (hframe : frame ∈ sentFrames net'.2) : Handed W .scanner frame
  | processOne {σ : Type} {server : Server σ} {net : τ} {device : σ}
      {calls : List HandlerCall} {handled : Bool}
    {s' : Serving σ (τ × List TransportEvent)} {frame : List UInt8}
    (h : server.processOne W.traced.toTransport ⟨(net, []), device, calls⟩ = .ok (handled, s'))
    (hframe : frame ∈ sentFrames s'.net.2) : Handed W .server frame
  | submit {pipeline : Pipeline} {net : τ} {request : PDU} {callback : Callback}
      {timeout : Milliseconds}
    {now : Timestamp} {result : Result CorrelationID} {s' : Pipelining (τ × List TransportEvent)}
    {frame : List UInt8}
    (h : Pipeline.submit W.traced.toTransport request callback timeout now ⟨pipeline, net, []⟩ =
      .ok (result, s'))
    (hframe : frame ∈ sentFrames s'.net.2) : Handed W .pipeline frame
  | scanAndNotify {publisher : Publisher τ} {net : τ} {log : List (List (Option Issued))}
    {s' : Publishing (τ × List TransportEvent)} {frame : List UInt8}
    (h : Publisher.scanAndNotify W.traced ⟨publisher.traced, net, []⟩ = .ok (log, s'))
    (hframe : frame ∈ sentFrames s'.net.2) : Handed W .publisher frame

/-- Every frame in the record was made of a message of the component. -/
def Made (sender : Sender) (s : τ × List TransportEvent) : Prop :=
  ∀ frame ∈ sentFrames s.2, ∃ m : Message, m.sender = sender ∧ m.frame = frame

section made

variable {W : World τ} {sender : Sender} {s s' : τ × List TransportEvent}

theorem Made.empty (net : τ) : Made sender (net, []) := List.forall_mem_nil _

theorem Made.send (h : Made sender s) (m : Message) (hm : m.sender = sender) {sent : VoidResult}
    (hsend : W.traced.send m.frame s = .ok (sent, s')) : Made sender s' := by
  have htrace := (Transport.traced_send hsend).2
  rw [Made, htrace, sentFrames_append]
  exact List.forall_mem_append.mpr ⟨h, List.forall_mem_singleton.mpr ⟨m, hm, rfl⟩⟩

theorem Made.receive (h : Made sender s) {timeout : ℕ} {received : Result (List UInt8)}
    (hreceive : W.traced.receive timeout s = .ok (received, s')) : Made sender s' := by
  have htrace := (Transport.traced_receive hreceive).2
  rw [Made, htrace, sentFrames_append, sentFrames_received, sentFrames_nil, List.append_nil]
  exact h

theorem Server.handleRequest_replies {server : Server σ} {T : Transport τ}
    {pdu : PDU} {txnId : UInt16} {t t' : Serving σ τ}
    (h : server.handleRequest T pdu txnId t = .ok t') :
    t'.net = t.net ∨ ∃ response t₁, server.reply T response txnId t₁ = .ok t' ∧ t₁.net = t.net := by
  unfold handleRequest at h
  split_ifs at h
  · split at h
    · unfold handleRead at h
      split at h
      · dsimp only at h
        split at h
        · exact .inr ⟨_, _, h, rfl⟩
        · exact .inr ⟨_, _, h, rfl⟩
      · cases h
        exact .inl rfl
    · cases h
      exact .inl rfl
  · split at h
    · unfold handleWriteSingle at h
      split at h
      · exact .inr ⟨_, _, h, rfl⟩
      · cases h
        exact .inl rfl
    · cases h
      exact .inl rfl
  · split at h
    · unfold handleWriteMultiple at h
      split at h
      · exact .inr ⟨_, _, h, rfl⟩
      · cases h
        exact .inl rfl
    · cases h
      exact .inl rfl
  · cases h
    exact .inl rfl

theorem Server.handleRequest_made {server : Server σ} {pdu : PDU} {txnId : UInt16}
    {t t' : Serving σ (τ × List TransportEvent)} (h : Made .server t.net)
    (hhandle : server.handleRequest W.traced.toTransport pdu txnId t = .ok t') :
    Made .server t'.net := by
  rcases handleRequest_replies hhandle with hsame | ⟨response, t₁, hreply, hsame⟩
  · exact hsame ▸ h
  · obtain ⟨⟨sent, net⟩, hsend, hreply⟩ := bind_eq_ok.mp hreply
    cases hreply
    exact (hsame ▸ h : Made .server t₁.net).send (.response server.unitId response txnId) rfl hsend

theorem Server.processOne_made {server : Server σ} {handled : Bool}
    {t t' : Serving σ (τ × List TransportEvent)} (h : Made .server t.net)
    (hturn : server.processOne W.traced.toTransport t = .ok (handled, t')) :
    Made .server t'.net := by
  obtain ⟨⟨received, net⟩, hreceive, hturn⟩ := bind_eq_ok.mp hturn
  have hnet := h.receive hreceive
  cases received with
  | failure ec =>
    cases hturn
    exact hnet
  | value bytes =>
    obtain ⟨decoded, -, hturn⟩ := bind_eq_ok.mp hturn
    cases decoded with
    | failure ec =>
      cases hturn
      exact hnet
    | value request =>
      obtain ⟨unit, pdu, txnId⟩ := request
      dsimp only at hturn
      split_ifs at hturn
      · cases hturn
        exact hnet
      · obtain ⟨t₁, hhandle, hturn⟩ := bind_eq_ok.mp hturn
        cases hturn
        exact handleRequest_made (t := { t with net }) hnet hhandle

theorem Publisher.push_made {notif : EventNotification} {delivered : Bool} (h : Made .publisher s)
    (hpush : push W.traced notif s = .ok (delivered, s')) : Made .publisher s' := by
  rcases push_cases hpush with ⟨-, -, rfl⟩ | ⟨sent, -, hsend, -⟩
  · exact h
  · exact h.send (.notification notif) rfl hsend

theorem Publisher.Turn.made {source : DataSource (τ × List TransportEvent)} {current : List UInt16}
    {sub sub' : ActiveSubscription} {issued : Option Issued} (h : Made .publisher s)
    (hturn : Turn W.traced source current sub s issued sub' s') : Made .publisher s' := by
  cases hturn with
  | uncovered hcovers => exact h
  | quiet hcovers hslice hprev hnotify =>
    rcases shouldNotify_net hnotify with rfl | rfl
    · exact h
    · exact h
  | @told hcovers slice prevSlice net₁ net₃ delivered hslice hprev hnotify hpush =>
    have hnow : Made .publisher (W.traced.now net₁).2 := by
      rcases shouldNotify_net hnotify with rfl | rfl
      · exact h
      · exact h
    have hpushed : Made .publisher net₃ := push_made hnow hpush
    exact hpushed

theorem Publisher.scanAndNotify_made {publisher : Publisher τ} {log : List (List (Option Issued))}
    {t' : Publishing (τ × List TransportEvent)} (h : Made .publisher s)
    (hscan : scanAndNotify W.traced ⟨publisher.traced, s⟩ = .ok (log, t')) :
    Made .publisher t'.net := by
  obtain ⟨⟨outs, subs, net⟩, hsources, hscan⟩ := bind_eq_ok.mp hscan
  cases hscan
  simp only [Publisher.traced, runAll_map] at hsources
  refine (runAll_keeps
    (fun p : List ActiveSubscription × τ × List TransportEvent => Made .publisher p.2)
    (fun _ => True) ?_ publisher.sources h hsources).1
  rintro source ⟨subs₁, s₁⟩ ⟨row, source'⟩ ⟨subs₂, s₂⟩ hmade hone
  refine ⟨(scanSource_turns (Made .publisher) ?_ (fun _ _ _ _ _ _ hn hturn => hturn.made hn)
    hone).1, trivial⟩
  intro current s₃ hread
  obtain ⟨⟨values, net₃⟩, -, hread⟩ := bind_eq_ok.mp hread
  cases hread
  exact hmade

/-- Whatever is handed to a transport was made of a message of its sender. -/
theorem Handed.made {frame : List UInt8} (h : Handed W sender frame) :
    ∃ m : Message, m.sender = sender ∧ m.frame = frame := by
  cases h with
  | @transact client net unit request result s' _ h hframe =>
    obtain ⟨-, events, htrace, hexchanged⟩ := Client.transact_traced h
    rw [htrace, List.nil_append, hexchanged.sentFrames, List.mem_singleton] at hframe
    exact ⟨.request client unit request, rfl, hframe.symm⟩
  | @probe config unitId net result net' _ h hframe =>
    have hle := (Scanner.probe_cases (fun s s' => Made .scanner s → Made .scanner s')
      (fun _ _ _ h h' hs => h' (h hs)) ?_ (fun _ _ _ _ h hs => hs.receive h) (fun _ hs => hs) h).1
    · exact hle (Made.empty net) frame hframe
    · rintro _ n o n' (rfl | rfl) hsend hs
      · exact hs.send (.probe unitId) rfl hsend
      · exact hs.send (.discover unitId) rfl hsend
  | @processOne σ server net device calls handled s' _ h hframe =>
    exact Server.processOne_made (t := ⟨(net, []), device, calls⟩) (Made.empty net) h frame hframe
  | @submit pipeline net request callback timeout now result s' _ h hframe =>
    obtain ⟨sent, queue, hsend, -, -⟩ := Pipeline.submit_cases W.traced.toTransport h
    exact (Made.empty net).send (.submission pipeline.nextId request) rfl hsend frame hframe
  | @scanAndNotify publisher net log s' _ h hframe =>
    exact Publisher.scanAndNotify_made (Made.empty net) h frame hframe

end made

/-- Every frame that a component hands to a transport was made of one of its messages, and
the messages whose PDU fits a length field can be received exactly if they are delimited. -/
theorem sent_receivable_iff (W : World τ) :
    (∀ sender frame, Handed W sender frame → ∃ m : Message, m.sender = sender ∧ m.frame = frame) ∧
      ∀ m : Message, (m.pdu.serialize.length ≤ 65534 → Receivable m.frame) ↔
        (m.pdu.serialize.length ≤ 65534 → m.Delimited) :=
  ⟨fun _ _ h => h.made, fun _ => forall_congr' Message.receivable_iff_delimited⟩

/-- The first read of a pipeline, and a notification: a receiver cuts the one after seven
bytes, and finds no length in the other. -/
theorem bare_frames_not_receivable :
    (Handed Publisher.scripted .pipeline [0x6E, 1, 0, 0, 0, 1, 0x0A, 0, 5, 3, 0, 0, 0, 4] ∧
      ¬Receivable [0x6E, 1, 0, 0, 0, 1, 0x0A, 0, 5, 3, 0, 0, 0, 4]) ∧
    Handed Publisher.scripted .publisher
        [0x6E, 1, 0, 1, 0, 0, 0, 0, 0, 0, 0, 0, 0, 0, 5, 0, 10, 0, 0, 0, 1, 0, 0, 0, 1, 0, 7] ∧
      ¬Receivable [0x6E, 1, 0, 1, 0, 0, 0, 0, 0, 0, 0, 0, 0, 0, 5, 0, 10, 0, 0, 0, 1, 0, 0, 0,
        1, 0, 7] := by
  obtain ⟨result, s₁, hsubmit, hframe₁⟩ :
    ∃ result s', Pipeline.submit Publisher.scripted.traced.toTransport
      (Client.readHoldingRequest 0 4) ⟨0, true⟩ 0 ⟨0⟩ ⟨.create {}, [], []⟩ = .ok (result, s') ∧
      [0x6E, 1, 0, 0, 0, 1, 0x0A, 0, 5, 3, 0, 0, 0, 4] ∈ sentFrames s'.net.2 :=
        ⟨_, _, rfl, by decide⟩
  obtain ⟨log, s₂, hscan, hframe₂⟩ : ∃ log s', Publisher.scanAndNotify Publisher.scripted.traced
      ⟨(Publisher.oneRegister [7]).publisher.traced, [7], []⟩ = .ok (log, s') ∧
      [0x6E, 1, 0, 1, 0, 0, 0, 0, 0, 0, 0, 0, 0, 0, 5, 0, 10, 0, 0, 0, 1, 0, 0, 0, 1, 0, 7] ∈
        sentFrames s'.net.2 :=
    ⟨_, _, rfl, by decide⟩
  refine ⟨⟨.submit hsubmit hframe₁, fun h => ?_⟩, .scanAndNotify hscan hframe₂, fun h => ?_⟩
  · have hframed := receivable_iff.mp h
    revert hframed
    decide
  · have hframed := receivable_iff.mp h
    revert hframed
    decide

end ModbusPp
