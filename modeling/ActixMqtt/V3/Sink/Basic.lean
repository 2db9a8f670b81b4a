import ActixMqtt.Support.Slab
import ActixMqtt.V3.Codec.Packet

/-!
# V3 — Sink — the sink and its send futures

`sink.rs` as a machine.  The state is everything that shares the sink's cell: the
`RefCell<MqttSinkInner>` (with whether a `RefMut` of it is alive), the send futures that hold
the receiving ends of its one-shot channels, and the outbound channel to the dispatcher.  An
`Event` is one thing the single connection thread can do next: poll a send future for the
first time or again, drop one, hand an acknowledgement to `pkt_ack`, close, ping, publish at
QoS 0, or have the dispatcher drop the outbound receiver.  Between two events no `RefMut` is
alive: every builder drops its borrow before it awaits.

A send future is one of the three ack-requiring sends of the builders, and the three share
one body, `AckedSend.start` / `AckedSend.resume` / `AckedSend.finish`, at the three points it
is polled from.  They differ in the packet they push and in what they return from the
acknowledgement: `PublishBuilder.sendAtLeastOnce`, `SubscribeBuilder.send` and
`UnsubscribeBuilder.send` are the body at their own values.

The one-shot channels are named by the future holding the receiver: the waiter FIFO holds the
futures whose waiter receivers its senders feed, and each slot of the in-flight slab holds the
future its acknowledgement sender feeds.  A send on such a channel succeeds exactly when that
future still waits on it (`sendWake`, `sendAck`).

A step either returns or panics; a panic is `Except.error` with the message Rust prints.
-/

namespace ActixMqtt.V3

/-- Results compare by what they hold, so that runs of the model can be decided. -/
instance decEqExcept {ε α : Type} [DecidableEq ε] [DecidableEq α] : DecidableEq (Except ε α)
  | .error a, .error b => decidable_of_iff (a = b) ⟨congrArg _, Except.error.inj⟩
  | .ok a, .ok b => decidable_of_iff (a = b) ⟨congrArg _, Except.ok.inj⟩
  | .error _, .ok _ => isFalse Except.noConfusion
  | .ok _, .error _ => isFalse Except.noConfusion

/-- `sink::Ack`. -/
inductive Ack
  | publish (id : NonZeroU16)
  | subscribe (packetId : NonZeroU16) (status : List SubscribeReturnCode)
  | unsubscribe (id : NonZeroU16)
  deriving DecidableEq

/-- `sink::AckType`. -/
inductive AckType
  | publish
  | subscribe
  | unsubscribe
  deriving DecidableEq, Repr

namespace Ack

/-- `Ack::packet_type`. -/
def packetType : Ack → UInt8
  | .publish _ => PUBACK
  | .subscribe .. => SUBACK
  | .unsubscribe _ => UNSUBACK

/-- `Ack::packet_id`: `id.get() as usize`. -/
def packetId : Ack → Nat
  | .publish id => id.get.toNat
  | .subscribe id _ => id.get.toNat
  | .unsubscribe id => id.get.toNat

/-- `Ack::subscribe` (the constructor has the name), which panics on any other
acknowledgement. -/
def subscribeCodes : Ack → Except String (List SubscribeReturnCode)
  | .subscribe _ status => pure status
  | _ => throw "explicit panic"

/-- `Ack::is_match`. -/
def isMatch : Ack → AckType → Bool
  | .publish _, .publish => true
  | .subscribe .., .subscribe => true
  | .unsubscribe _, .unsubscribe => true
  | _, _ => false

end Ack

/-- `AckType::name`. -/
def AckType.name : AckType → String
  | .publish => "PublishAck"
  | .subscribe => "SubscribeAck"
  | .unsubscribe => "UnsubscribeAck"

/-- `error::ProtocolError`, at the variants `pkt_ack` returns. -/
inductive ProtocolError
  | packetIdMismatch
  | unexpected (packetType : UInt8) (expected : String)
  deriving DecidableEq

/-- `error::SendPacketError`, at the variants the sink returns. -/
inductive SendPacketError
  | disconnected
  | packetIdNotAvailable
  deriving DecidableEq, Repr

/-- What a send returns on success: `()` from a publish or an unsubscribe, the return codes of
the `SUBACK` from a subscribe. -/
inductive Reply
  | unit
  | codes (c : List SubscribeReturnCode)
  deriving DecidableEq

/-- `PublishBuilder`, at its packet: `MqttSink::publish` sets `qos` to `AtMostOnce` and
`packet_id` to `None`, and `dup(val)` and `retain()` set the flags. -/
structure PublishBuilder where
  topic : String
  payload : List UInt8
  dup : Bool
  retain : Bool
  deriving DecidableEq

/-- The `codec::Publish` a `PublishBuilder` holds. -/
def PublishBuilder.packet (b : PublishBuilder) : Publish :=
  { dup := b.dup, retain := b.retain, qos := .atMostOnce, topic := b.topic, packetId := none,
    payload := b.payload }

/-- A send future, by the builder it came from: `PublishBuilder::send_at_least_once`,
`SubscribeBuilder::send` or `UnsubscribeBuilder::send`. -/
inductive Request
  | publish (b : PublishBuilder)
  | subscribe (topicFilters : List (String × QoS))
  | unsubscribe (topicFilters : List String)
  deriving DecidableEq

/-- Where a send future stands between two polls.  `parked` holds its waiter receiver and
`awaitingAck idx` the acknowledgement receiver of packet `idx`; `woken`, `acked` and
`canceled` are those receivers after the sender side fired or was dropped. -/
inductive Phase
  | parked
  | woken
  | awaitingAck (idx : Nat)
  | acked (a : Ack)
  | canceled
  | done (r : Except SendPacketError Reply)
  | dropped
  deriving DecidableEq

/-- A send future. -/
structure Task where
  req : Request
  phase : Phase
  deriving DecidableEq

/-- `mpsc::Sender<(codec::Packet, usize)>`: every sender feeds the one dispatcher, so a
sender carries nothing of its own. -/
structure Sender where
  deriving DecidableEq

/-- `MqttSinkInner`.  `queue` holds, for each in-flight packet, the future its acknowledgement
sender feeds and the acknowledgement kind; `waiters` the futures parked on the receive
maximum.  `pool` only recycles channel allocations and is left out. -/
structure MqttSinkInner where
  cap : Nat
  sink : Option Sender
  queue : Slab (Nat × AckType)
  queueOrder : List Nat
  waiters : List Nat

/-- An `MqttSink` handle, with everything that shares its cell: `borrowed` is whether a
`RefMut` of the cell is alive, `tasks` the send futures by the order of their first poll,
`out` what was pushed onto the outbound channel, and `rxOpen` whether the dispatcher still
holds its receiver. -/
structure MqttSink where
  inner : MqttSinkInner
  borrowed : Bool
  tasks : List Task
  out : List (Packet × Nat)
  rxOpen : Bool

/-- An event of the connection thread. -/
inductive Event
  | start (r : Request)
  | poll (t : Nat)
  | drop (t : Nat)
  | publishAtMostOnce (b : PublishBuilder)
  | ack (a : Ack)
  | close
  | ping
  | disconnect

/-- `usize` subtraction as a release build computes it, wrapping below zero.  The model is of
a release build; a debug build panics there instead (`MqttSink.stepDebug`). -/
def usizeSub (a b : Nat) : Nat := (((a : Int) - b) % 2 ^ 64).toNat

/-- The message of a `usize` subtraction below zero in a debug build. -/
def subOverflowMsg : String := "attempt to subtract with overflow"

/-- The message of `unreachable!` in `pkt_ack`. -/
def unreachableMsg : String :=
  "internal error: entered unreachable code: Internal: Can not get puublish ack channel"

/-- The message of `RefCell::borrow_mut` while a `RefMut` is alive. -/
def borrowMutMsg : String := "already borrowed: BorrowMutError"

namespace MqttSink

/-- `MqttSink::new`. -/
def new (maxSend : Nat) : MqttSink where
  inner := { cap := maxSend, sink := some ⟨⟩, queue := .empty, queueOrder := [], waiters := [] }
  borrowed := false
  tasks := []
  out := []
  rxOpen := true

/-- `RefCell::borrow_mut`. -/
def borrowMut (s : MqttSink) : Except String MqttSink :=
  if s.borrowed then throw borrowMutMsg else pure { s with borrowed := true }

/-- `RefCell::borrow`. -/
def borrow (s : MqttSink) : Except String Unit :=
  if s.borrowed then throw "already mutably borrowed: BorrowError" else pure ()

/-- Dropping the `RefMut`. -/
def release (s : MqttSink) : MqttSink := { s with borrowed := false }

/-- The phase of future `t`. -/
def phase (s : MqttSink) (t : Nat) : Option Phase := s.tasks[t]?.map Task.phase

/-- Future `t` moves to phase `ph`. -/
def setPhase (s : MqttSink) (t : Nat) (ph : Phase) : MqttSink :=
  { s with tasks := s.tasks.modify (fun task => { task with phase := ph }) t }

/-- `tx.send(())` on the waiter one-shot of future `t`: it succeeds iff `t` still waits. -/
def sendWake (s : MqttSink) (t : Nat) : MqttSink × Bool :=
  if s.phase t = some .parked then (s.setPhase t .woken, true) else (s, false)

/-- `tx.send(pkt)` on the acknowledgement one-shot of future `t`. -/
def sendAck (s : MqttSink) (t : Nat) (a : Ack) : MqttSink × Bool :=
  match s.phase t with
  | some (.awaitingAck _) => (s.setPhase t (.acked a), true)
  | _ => (s, false)

/-- Dropping the acknowledgement sender of future `t` unsent. -/
def cancelAck (s : MqttSink) (t : Nat) : MqttSink :=
  match s.phase t with
  | some (.awaitingAck _) => s.setPhase t .canceled
  | _ => s

/-- `MqttSink::close`. -/
def close (s : MqttSink) : Except String MqttSink := do
  let s ← s.borrowMut
  return { s.release with inner.sink := none }

/-- `MqttSink::ping`. -/
def ping (s : MqttSink) : Except String (MqttSink × Bool) := do
  let s ← s.borrowMut
  match s.inner.sink with
  | some _ =>
    let s := { s with inner.sink := none }
    if s.rxOpen then return ({ s.release with out := s.out ++ [(.pingRequest, 0)] }, true)
    else return (s.release, false)
  | none => return (s.release, false)

/-- The release loop of `pkt_ack`: pop waiters until a wake succeeds.  Returns the FIFO
that is left. -/
def wakeWaiters (s : MqttSink) : List Nat → MqttSink × List Nat
  | [] => (s, [])
  | t :: rest =>
    match s.sendWake t with
    | (s, true) => (s, rest)
    | (s, false) => wakeWaiters s rest

/-- The release loop run on `inner.waiters`, with what is left of the FIFO written back. -/
def wake (s : MqttSink) : MqttSink :=
  let (s', waiters) := s.wakeWaiters s.inner.waiters
  { s' with inner.waiters := waiters }

/-- The end of `pkt_ack` on a mismatch: `self.close()` while `inner` is still borrowed. -/
def mismatch (s : MqttSink) : Except String (MqttSink × Except ProtocolError Unit) := do
  let s ← close s
  return (s.release, .error .packetIdMismatch)

/-- `MqttSink::pkt_ack`. -/
def pktAck (s : MqttSink) (pkt : Ack) : Except String (MqttSink × Except ProtocolError Unit) := do
  let s ← s.borrowMut
  match s.inner.queueOrder with
  | [] => mismatch s
  | idx :: rest =>
    let s := { s with inner.queueOrder := rest }
    if idx ≠ pkt.packetId then mismatch s
    else
      let idx := pkt.packetId - 1
      if s.inner.queue.contains idx then
        match s.inner.queue.remove idx with
        | none => throw "invalid key"
        | some ((t, tp), queue) =>
          let s := { s with inner.queue := queue }
          if !pkt.isMatch tp then
            return ((s.cancelAck t).release, .error (.unexpected pkt.packetType tp.name))
          let (s, _) := s.sendAck t pkt
          return (s.wake.release, .ok ())
      else throw unreachableMsg

end MqttSink

/-- `PublishBuilder::send_at_most_once`. -/
def PublishBuilder.sendAtMostOnce (b : PublishBuilder) (s : MqttSink) : Except String MqttSink := do
  s.borrow
  match s.inner.sink with
  | some _ => return if s.rxOpen then { s with out := s.out ++ [(.publish b.packet, 0)] } else s
  | none => return s

/-- What tells the three ack-requiring sends apart: the acknowledgement kind they wait for, the
packet they push with packet id `idx`, and what they return from their acknowledgement. -/
structure AckedSend where
  ackType : AckType
  packet : Nat → Except String Packet
  reply : Ack → Except String Reply

namespace AckedSend

/-- Packet-id allocation and the push, with `inner` borrowed. -/
def allocate (a : AckedSend) (t : Nat) (s : MqttSink) : Except String (MqttSink × Phase) := do
  let (queue, k) := s.inner.queue.insert (t, a.ackType)
  let s := { s with inner.queue := queue }
  let idx := k + 1
  if idx > 65535 then
    match s.inner.queue.remove (idx - 1) with
    | none => throw "invalid key"
    | some (_, queue) =>
      return ({ s with inner.queue := queue }.release, .done (.error .packetIdNotAvailable))
  let s := { s with inner.queueOrder := s.inner.queueOrder ++ [idx] }
  let pkt ← a.packet idx
  match s.inner.sink with
  | none => throw unwrapNone
  | some _ =>
    if s.rxOpen then return ({ s with out := s.out ++ [(pkt, 0)] }.release, .awaitingAck idx)
    else return (s.release, .done (.error .disconnected))

/-- The first poll of a send, as future `t`: refuse on a closed sink, park at the receive
maximum, or allocate. -/
def start (a : AckedSend) (t : Nat) (s : MqttSink) : Except String (MqttSink × Phase) := do
  let s ← s.borrowMut
  match s.inner.sink with
  | none => return (s.release, .done (.error .disconnected))
  | some _ =>
    if usizeSub s.inner.cap s.inner.queue.len = 0 then
      return ({ s with inner.waiters := s.inner.waiters ++ [t] }.release, .parked)
    a.allocate t s

/-- The poll after the waiter one-shot fired. -/
def resume (a : AckedSend) (t : Nat) (s : MqttSink) : Except String (MqttSink × Phase) := do
  let s ← s.borrowMut
  a.allocate t s

/-- The poll after the acknowledgement one-shot resolved; any other phase is `Pending`. -/
def finish (a : AckedSend) : Phase → Except String Phase
  | .acked pkt => (fun r => .done (.ok r)) <$> a.reply pkt
  | .canceled => pure (.done (.error .disconnected))
  | ph => pure ph

end AckedSend

/-- `PublishBuilder::send_at_least_once`. -/
def PublishBuilder.sendAtLeastOnce (b : PublishBuilder) : AckedSend where
  ackType := .publish
  packet idx := pure (.publish
    { b.packet with packetId := NonZeroU16.new (UInt16.ofNat idx), qos := .atLeastOnce })
  reply _ := pure .unit

/-- `SubscribeBuilder::send`. -/
def SubscribeBuilder.send (topicFilters : List (String × QoS)) : AckedSend where
  ackType := .subscribe
  packet idx := match NonZeroU16.new (UInt16.ofNat idx) with
    | some id => pure (.subscribe id topicFilters)
    | none => throw unwrapNone
  reply pkt := .codes <$> pkt.subscribeCodes

/-- `UnsubscribeBuilder::send`. -/
def UnsubscribeBuilder.send (topicFilters : List String) : AckedSend where
  ackType := .unsubscribe
  packet idx := match NonZeroU16.new (UInt16.ofNat idx) with
    | some id => pure (.unsubscribe id topicFilters)
    | none => throw unwrapNone
  reply _ := pure .unit

/-- The send a future runs. -/
def Request.send : Request → AckedSend
  | .publish b => b.sendAtLeastOnce
  | .subscribe fs => SubscribeBuilder.send fs
  | .unsubscribe fs => UnsubscribeBuilder.send fs

namespace MqttSink

/-- One event of the connection thread. -/
def step (s : MqttSink) : Event → Except String MqttSink
  | .start r => do
    let (s, ph) ← r.send.start s.tasks.length s
    return { s with tasks := s.tasks ++ [⟨r, ph⟩] }
  | .poll t =>
    match s.tasks[t]? with
    | some ⟨r, .woken⟩ => do
      let (s, ph) ← r.send.resume t s
      return s.setPhase t ph
    | some ⟨r, ph⟩ => do
      let ph ← r.send.finish ph
      return s.setPhase t ph
    | none => pure s
  | .drop t => pure (s.setPhase t .dropped)
  | .publishAtMostOnce b => b.sendAtMostOnce s
  | .ack a => Prod.fst <$> s.pktAck a
  | .close => s.close
  | .ping => Prod.fst <$> s.ping
  | .disconnect => pure { s with rxOpen := false }

/-- One event in a debug build.  The two builds differ only at `inner.cap - inner.queue.len()`
in the first poll of a send (`sink.rs` lines 237, 300 and 372), the one subtraction of `sink.rs`
that can go below zero: reached with the cell free and the transmit side there, it panics where
a release build wraps.  Every other event, and every debug step that returns, is the release
step. -/
def stepDebug (s : MqttSink) : Event → Except String MqttSink
  | .start r =>
    if !s.borrowed && s.inner.sink.isSome && decide (s.inner.cap < s.inner.queue.len) then
      throw subOverflowMsg
    else s.step (.start r)
  | e => s.step e

/-- A run of events. -/
def run (s : MqttSink) : List Event → Except String MqttSink
  | [] => pure s
  | e :: es => s.step e >>= fun s => run s es

/-- The states a sink with receive maximum `cap` can reach. -/
inductive Reachable (cap : Nat) : MqttSink → Prop
  | init : Reachable cap (new cap)
  | step {s s' : MqttSink} {e : Event} : Reachable cap s → s.step e = .ok s' → Reachable cap s'

theorem Reachable.run {cap : Nat} {s s' : MqttSink} (h : Reachable cap s) :
    ∀ {es : List Event}, s.run es = .ok s' → Reachable cap s'
  | [], hr => by cases hr; exact h
  | e :: es, hr => by
    simp only [MqttSink.run, bind, Except.bind] at hr
    split at hr
    · cases hr
    · exact Reachable.run (.step h ‹_›) hr

end MqttSink

end ActixMqtt.V3
