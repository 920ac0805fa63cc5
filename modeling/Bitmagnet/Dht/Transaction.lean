import Mathlib.Data.List.AList
import Bitmagnet.Library.Machine
import Bitmagnet.Dht.Krpc

/-!
# The transaction registry

The model of `transaction.rs`: queries in flight, keyed by a two-byte transaction
identifier that is reused as soon as it is free.

Several threads hold handles on one registry.  What they can interleave are the
sections the registry's mutex guards, and the channel operations outside it; each
of these is one `Event`.  In particular `finish` is two events, because a delivery
can come between the drop of the receiver and the drop of the guard, and dropping
an unsent query drops the guard first.  `Registration` is the owner's side of one
registration: the guard, the receiving half of its channel of capacity one, and
how far the owner has come.  `accepted`, `received` and `waiterGone` are history
variables that no transition reads.
-/

namespace Bitmagnet.Dht

/-! ## Identifiers and addresses -/

/-- `TRANSACTION_ID_BYTES`. -/
def transactionIdBytes : Nat := 2

/-- `TRANSACTION_ID_SPACE`. -/
def transactionIdSpace : Nat := 65536

/-- `TransactionId`. -/
abbrev TransactionId := Bytes.Fixed UInt8 transactionIdBytes

/-- `TransactionIdSourceError`. -/
structure TransactionIdSourceError where
  message : String
deriving DecidableEq

/-- `std::net::SocketAddr`. -/
inductive SocketAddr
  | v4 (ip : Bytes.Fixed UInt8 4) (port : UInt16)
  | v6 (ip : Bytes.Fixed UInt8 16) (port : UInt16) (flowinfo scopeId : UInt32)
deriving DecidableEq

/-- `Ipv6Addr::to_ipv4_mapped`: the `::ffff:a.b.c.d` addresses. -/
def toIpv4Mapped (ip : Bytes.Fixed UInt8 16) : Option (Bytes.Fixed UInt8 4) :=
  if ip.val.take 12 = List.replicate 10 0 ++ [0xff, 0xff] then
    some ⟨ip.val.drop 12, by simp [ip.property]⟩
  else none

/-- `normalize_socket_addr`. -/
def normalizeSocketAddr : SocketAddr → SocketAddr
  | .v6 ip port _ scopeId =>
    if scopeId = 0 then
      match toIpv4Mapped ip with
      | some ipv4 => .v4 ipv4 port
      | none => .v6 ip port 0 0
    else .v6 ip port 0 scopeId
  | .v4 ip port => .v4 ip port

/-! ## Registry state -/

/-- `AcceptedResponse`. -/
structure AcceptedResponse where
  source : SocketAddr
  message : KrpcMessage
deriving DecidableEq

/-- `EntryState`. -/
inductive EntryState
  | awaiting
  | delivered
deriving DecidableEq

/-- `PendingEntry`.  The sending half of the channel is the number of the
registration whose receiver it feeds. -/
structure PendingEntry where
  generation : Nat
  expectedSource : SocketAddr
  sender : Nat
  state : EntryState
deriving DecidableEq

/-- `TransactionWaitOutcome`. -/
inductive TransactionWaitOutcome
  | response (source : SocketAddr) (message : KrpcMessage) (response : MessageReturn)
  | remoteError (source : SocketAddr) (message : KrpcMessage) (error : KrpcError)
  | missingReturnBody (source : SocketAddr) (message : KrpcMessage)
  | missingErrorBody (source : SocketAddr) (message : KrpcMessage)
  | timeout
  | cancelled
  | registryClosed
deriving DecidableEq

/-- How far the owner of a registration has come. -/
inductive Phase
  /-- A `RegisteredQuery`: guard and receiver are held. -/
  | registered
  /-- A `RegisteredQuery` being dropped: the guard is gone, the receiver not yet. -/
  | unguarded
  | dropped
  /-- A `PendingTransaction` that waits, or that nothing waits on. -/
  | sent
  /-- The outcome is known and `finish` not yet entered. -/
  | concluded (outcome : TransactionWaitOutcome)
  /-- In `finish`: the receiver is gone, the guard not yet. -/
  | finishing (outcome : TransactionWaitOutcome)
  | finished (outcome : TransactionWaitOutcome)
deriving DecidableEq

/-- The owner still holds the registration guard. -/
def Phase.guardHeld : Phase → Bool
  | registered | sent | concluded _ | finishing _ => true
  | unguarded | dropped | finished _ => false

/-- The owner still holds the receiver. -/
def Phase.receiverOpen : Phase → Bool
  | registered | unguarded | sent | concluded _ => true
  | dropped | finishing _ | finished _ => false

/-- The owner's side of a registration. -/
structure Registration where
  transactionId : TransactionId
  generation : Nat
  remote : SocketAddr
  message : KrpcMessage
  phase : Phase
  /-- The channel's one slot. -/
  buffer : Option AcceptedResponse
  /-- Everything ever sent into the channel. -/
  accepted : List AcceptedResponse
  /-- Everything ever taken out of it. -/
  received : List AcceptedResponse
  /-- A delivery found the receiver gone and removed the entry. -/
  waiterGone : Bool
deriving DecidableEq

/-- The registry, its identifier source, and every registration made so far. -/
structure World (I : Type) where
  issuer : I
  closed : Bool
  nextGeneration : Nat
  pending : AList fun _ : TransactionId => PendingEntry
  registrations : List Registration

/-- `TransactionRegistry::new`. -/
def World.new {I : Type} (issuer : I) : World I := ⟨issuer, false, 0, ∅, []⟩

/-- `pending_count`. -/
def World.pendingCount {I : Type} (w : World I) : Nat := w.pending.keys.length

/-! ## Registration -/

/-- `RegisterError`. -/
inductive RegisterError
  | registryClosed
  | transactionIdSpaceFull
  | collisionRetryExhausted
  | idSource (error : TransactionIdSourceError)
  | generationExhausted
deriving DecidableEq

/-- `DeliveryOutcome`. -/
inductive DeliveryOutcome
  | delivered
  | duplicate
  | unknownTransaction
  | invalidTransactionId
  | invalidMessageType
  | addressMismatch (expectedSource : SocketAddr)
  | waiterGone
  | registryClosed
deriving DecidableEq

/-- What an event answers. -/
inductive Reply
  | registered (registration : Nat)
  | registerFailed (error : RegisterError)
  | delivery (outcome : DeliveryOutcome)
  | done
deriving DecidableEq

section Issuer

variable {I : Type} (issue : I → Except TransactionIdSourceError TransactionId × I)

/-- The selection loop of `register`. -/
def selectId (pending : AList fun _ : TransactionId => PendingEntry) :
    Nat → I → Except RegisterError TransactionId × I
  | 0, issuer => (.error .collisionRetryExhausted, issuer)
  | attempts + 1, issuer =>
    match issue issuer with
    | (.error error, issuer') => (.error (.idSource error), issuer')
    | (.ok candidate, issuer') =>
      if candidate ∈ pending then selectId pending attempts issuer'
      else (.ok candidate, issuer')

/-- The query `register` builds. -/
def queryMessage (transactionId : TransactionId) (query : ByteString) (args : MessageArgs) :
    KrpcMessage where
  transactionId := transactionId.val
  messageType := [0x71]
  query := query
  args := some args
  response := none
  error := none
  observedAddr := none
  readOnly := false
  clientId := []

/-- `register`, with both mutexes held throughout.  `next_generation` is a `u64`
and moves by a checked addition. -/
def World.register (w : World I) (remote : SocketAddr) (query : ByteString) (args : MessageArgs) :
    Reply × World I :=
  if w.closed then (.registerFailed .registryClosed, w)
  else if w.pending.keys.length = transactionIdSpace then
    (.registerFailed .transactionIdSpaceFull, w)
  else
    match selectId issue w.pending transactionIdSpace w.issuer with
    | (.error error, issuer) => (.registerFailed error, { w with issuer := issuer })
    | (.ok transactionId, issuer) =>
      if w.nextGeneration + 1 < 2 ^ 64 then
        let sender := w.registrations.length
        (.registered sender,
          { w with
            issuer := issuer
            nextGeneration := w.nextGeneration + 1
            pending := w.pending.insert transactionId
              ⟨w.nextGeneration, normalizeSocketAddr remote, sender, .awaiting⟩
            registrations := w.registrations ++
              [⟨transactionId, w.nextGeneration, remote, queryMessage transactionId query args,
                .registered, none, [], [], false⟩] })
      else (.registerFailed .generationExhausted, { w with issuer := issuer })

end Issuer

/-! ## Delivery -/

/-- What `try_send` answers. -/
inductive TrySend
  | sent
  | full
  | closed
deriving DecidableEq

variable {I : Type}

/-- `try_send` into the channel of a registration. -/
def World.trySend (w : World I) (sender : Nat) : TrySend :=
  match w.registrations[sender]? with
  | some registration =>
    if registration.phase.receiverOpen then
      if registration.buffer.isNone then .sent else .full
    else .closed
  | none => .closed

/-- `deliver`. -/
def World.deliver (w : World I) (source : SocketAddr) (message : KrpcMessage) :
    DeliveryOutcome × World I :=
  if message.messageType ≠ [0x72] ∧ message.messageType ≠ [0x65] then (.invalidMessageType, w)
  else
    match Bytes.toFixed transactionIdBytes message.transactionId with
    | none => (.invalidTransactionId, w)
    | some transactionId =>
      let source := normalizeSocketAddr source
      if w.closed then (.registryClosed, w)
      else
        match w.pending.lookup transactionId with
        | none => (.unknownTransaction, w)
        | some entry =>
          if source ≠ entry.expectedSource then
            (.addressMismatch entry.expectedSource, w)
          else if entry.state = .delivered then (.duplicate, w)
          else
            match w.trySend entry.sender with
            | .sent =>
              (.delivered,
                { w with
                  pending := w.pending.insert transactionId { entry with state := .delivered }
                  registrations := w.registrations.modify entry.sender fun r =>
                    { r with
                      buffer := some ⟨source, message⟩
                      accepted := r.accepted ++ [⟨source, message⟩] } })
            | .full =>
              (.duplicate,
                { w with
                  pending :=
                    w.pending.insert transactionId { entry with state := .delivered } })
            | .closed =>
              (.waiterGone,
                { w with
                  pending := w.pending.erase transactionId
                  registrations := w.registrations.modify entry.sender fun r =>
                    { r with waiterGone := true } })

/-! ## The owner's side -/

/-- `classify_response`. -/
def classifyResponse (accepted : AcceptedResponse) : TransactionWaitOutcome :=
  if accepted.message.messageType = [0x65] then
    match accepted.message.error with
    | some error => .remoteError accepted.source accepted.message error
    | none => .missingErrorBody accepted.source accepted.message
  else
    match accepted.message.response with
    | some response => .response accepted.source accepted.message response
    | none => .missingReturnBody accepted.source accepted.message

/-- `remove_registration`: only the entry of the same generation. -/
def removeRegistration (pending : AList fun _ : TransactionId => PendingEntry)
    (transactionId : TransactionId) (generation : Nat) :
    AList fun _ : TransactionId => PendingEntry :=
  match pending.lookup transactionId with
  | some entry => if entry.generation = generation then pending.erase transactionId else pending
  | none => pending

/-- `receiver.recv()`: the buffered response, or the end of the channel once its
sender is gone; otherwise it keeps waiting. -/
def Registration.recv (registration : Registration) (senderGone : Bool) : Option Registration :=
  match registration.buffer with
  | some accepted =>
    some { registration with
      buffer := none
      received := registration.received ++ [accepted]
      phase := .concluded (classifyResponse accepted) }
  | none =>
    if senderGone then some { registration with phase := .concluded .registryClosed } else none

/-- The sending half of a channel lives in its pending entry. -/
def World.senderGone (w : World I) (i : Nat) : Bool :=
  w.pending.entries.all fun entry => entry.2.sender ≠ i

/-- One section under the mutex, or one channel operation outside it. -/
inductive Event
  | register (remote : SocketAddr) (query : ByteString) (args : MessageArgs)
  | deliver (source : SocketAddr) (message : KrpcMessage)
  | close
  | markSent (i : Nat)
  /-- A `RegisteredQuery` is dropped, unsent: its guard goes first. -/
  | abandon (i : Nat)
  /-- The receiver of a dropped `RegisteredQuery` goes. -/
  | dropReceiver (i : Nat)
  /-- `wait` sees the channel ready. -/
  | recv (i : Nat)
  /-- `wait` runs into its timeout. -/
  | timeout (i : Nat)
  /-- `cancel`, or the drop of a `PendingTransaction`. -/
  | cancel (i : Nat)
  /-- The first half of `finish`. -/
  | finishReceiver (i : Nat)
  /-- The second half of `finish`. -/
  | finishGuard (i : Nat)

/-- The owner's step on its registration: the registration it leaves, and whether
the guard goes with it.  `none` where the owner is not at that point. -/
def Registration.advance (registration : Registration) (senderGone : Bool) :
    Event → Option (Registration × Bool)
  | .markSent _ =>
    match registration.phase with
    | .registered => some ({ registration with phase := .sent }, false)
    | _ => none
  | .abandon _ =>
    match registration.phase with
    | .registered => some ({ registration with phase := .unguarded }, true)
    | _ => none
  | .dropReceiver _ =>
    match registration.phase with
    | .unguarded => some ({ registration with phase := .dropped, buffer := none }, false)
    | _ => none
  | .recv _ =>
    match registration.phase with
    | .sent => (registration.recv senderGone).map (·, false)
    | _ => none
  | .timeout _ =>
    match registration.phase with
    | .sent => some ({ registration with phase := .concluded .timeout }, false)
    | _ => none
  | .cancel _ =>
    match registration.phase with
    | .sent => some ({ registration with phase := .concluded .cancelled }, false)
    | _ => none
  | .finishReceiver _ =>
    match registration.phase with
    | .concluded outcome =>
      some ({ registration with phase := .finishing outcome, buffer := none }, false)
    | _ => none
  | .finishGuard _ =>
    match registration.phase with
    | .finishing outcome => some ({ registration with phase := .finished outcome }, true)
    | _ => none
  | _ => none

/-- The registration whose owner takes an event. -/
def Event.owner : Event → Option Nat
  | .register .. | .deliver .. | .close => none
  | .markSent i | .abandon i | .dropReceiver i | .recv i | .timeout i | .cancel i
  | .finishReceiver i | .finishGuard i => some i

/-- An owner's event on its registration `i`. -/
def World.own (w : World I) (e : Event) (i : Nat) : Option (Reply × World I) :=
  w.registrations[i]?.bind fun registration =>
    (registration.advance (w.senderGone i) e).map fun r =>
      (.done,
        { w with
          pending :=
            if r.2 then
              removeRegistration w.pending registration.transactionId registration.generation
            else w.pending
          registrations := w.registrations.set i r.1 })

/-- One event.  `none` where no thread can take it: its owner is elsewhere. -/
def World.step (issue : I → Except TransactionIdSourceError TransactionId × I) (w : World I) :
    Event → Option (Reply × World I)
  | .register remote query args => some (w.register issue remote query args)
  | .deliver source message =>
    some (.delivery (w.deliver source message).1, (w.deliver source message).2)
  | .close => some (.done, { w with closed := true, pending := ∅ })
  | e => e.owner.bind (w.own e)

end Bitmagnet.Dht
