import Bitmagnet.Dht.Transaction

/-!
# Correlation safety of the transaction registry

Transaction identifiers are reused, so an identifier alone does not say which
registration an entry belongs to.  The argument runs over generations: the
`i`-th registration has generation `i`, and an entry's generation is the number
of the registration its sender feeds.  `World.Coherent` ties entries and
registrations together that way; it holds initially, every event keeps it, and
the properties are read off it.
-/

namespace Bitmagnet.Dht

/-! ## What an owner's step can do -/

namespace Registration

/-- The registration is live: the registry is open, the guard is held, and no
delivery has found its waiter gone. -/
def live (closed : Bool) (registration : Registration) : Bool :=
  !closed && registration.phase.guardHeld && !registration.waiterGone

/-- A response that belongs to the registration. -/
def Answers (registration : Registration) (accepted : AcceptedResponse) : Prop :=
  (accepted.message.messageType = [0x72] ∨ accepted.message.messageType = [0x65]) ∧
    accepted.message.transactionId = registration.transactionId.val ∧
    accepted.source = normalizeSocketAddr registration.remote

/-- What holds of a registration on its own. -/
structure Sound (registration : Registration) : Prop where
  accepted_length : registration.accepted.length ≤ 1
  answers : ∀ a ∈ registration.accepted, registration.Answers a
  received : (registration.received ++ registration.buffer.toList).Sublist registration.accepted
  waiterGone : registration.waiterGone = true → registration.phase.receiverOpen = false

/-- **Everything an owner's step can do**: it keeps the query and what was sent into
its channel, moves responses only out of the channel, reopens nothing, and gives
the guard up exactly when it says so. -/
structure Advanced (registration registration' : Registration) (dropsGuard : Bool) : Prop where
  transactionId : registration'.transactionId = registration.transactionId
  generation : registration'.generation = registration.generation
  remote : registration'.remote = registration.remote
  accepted : registration'.accepted = registration.accepted
  waiterGone : registration'.waiterGone = registration.waiterGone
  channel : (registration'.received ++ registration'.buffer.toList).Sublist
    (registration.received ++ registration.buffer.toList)
  guardHeld : registration'.phase.guardHeld = (registration.phase.guardHeld && !dropsGuard)
  receiver : registration.phase.receiverOpen = false → registration'.phase.receiverOpen = false

variable {registration registration' : Registration}

lemma recv_advanced {senderGone : Bool} (hphase : registration.phase = .sent)
    (h : registration.recv senderGone = some registration') :
    registration.Advanced registration' false := by
  unfold recv at h
  split at h
  · rename_i accepted hbuffer
    cases h
    constructor <;> simp [hphase, hbuffer, Phase.guardHeld, Phase.receiverOpen]
  · rename_i hbuffer
    split at h
    · cases h
      constructor <;> simp [hphase, Phase.guardHeld, Phase.receiverOpen]
    · cases h

lemma advance_advanced {senderGone dropsGuard : Bool} {e : Event}
    (h : registration.advance senderGone e = some (registration', dropsGuard)) :
    registration.Advanced registration' dropsGuard := by
  cases e with
  | recv i =>
    simp only [advance] at h
    split at h
    · rename_i hphase
      obtain ⟨next, hnext, heq⟩ := Option.map_eq_some_iff.mp h
      cases heq
      exact recv_advanced hphase hnext
    · cases h
  | markSent i | abandon i | timeout i | cancel i | dropReceiver i | finishReceiver i
  | finishGuard i =>
    simp only [advance] at h
    split at h
    · rename_i hphase
      cases h
      constructor <;> simp [hphase, Phase.guardHeld, Phase.receiverOpen]
    · cases h
  | register _ _ _ | deliver _ _ | close => cases h

lemma Sound.advanced {dropsGuard : Bool} (h : registration.Sound)
    (hadv : registration.Advanced registration' dropsGuard) :
    registration'.Sound where
  accepted_length := hadv.accepted ▸ h.accepted_length
  answers := by
    intro a ha
    rw [hadv.accepted] at ha
    obtain ⟨htype, hid, hsource⟩ := h.answers a ha
    exact ⟨htype, hadv.transactionId ▸ hid, hadv.remote ▸ hsource⟩
  received := hadv.accepted ▸ hadv.channel.trans h.received
  waiterGone hgone := hadv.receiver (h.waiterGone (hadv.waiterGone ▸ hgone))

end Registration

/-! ## Coherence of entries and registrations -/

/-- An entry belongs to the live registration its sender feeds. -/
structure PendingEntry.BelongsTo (entry : PendingEntry) (transactionId : TransactionId)
    (closed : Bool) (registration : Registration) : Prop where
  generation : entry.generation = entry.sender
  transactionId : registration.transactionId = transactionId
  source : normalizeSocketAddr registration.remote = entry.expectedSource
  live : registration.live closed = true
  awaiting : entry.state = .awaiting → registration.accepted = []

namespace World

variable {I : Type}

/-- Entries and live registrations correspond, over generations. -/
structure Coherent (w : World I) : Prop where
  generation : ∀ (i : Nat) (registration : Registration), w.registrations[i]? = some registration →
    registration.generation = i
  next : w.nextGeneration = w.registrations.length
  entry : ∀ (transactionId : TransactionId) (entry : PendingEntry),
    w.pending.lookup transactionId = some entry →
    ∃ registration, w.registrations[entry.sender]? = some registration ∧
      entry.BelongsTo transactionId w.closed registration
  live : ∀ (i : Nat) (registration : Registration), w.registrations[i]? = some registration →
    registration.live w.closed = true →
    ∃ entry, w.pending.lookup registration.transactionId = some entry ∧ entry.sender = i
  count : w.pending.keys.length = w.registrations.countP (Registration.live w.closed)
  sound : ∀ registration ∈ w.registrations, registration.Sound

lemma coherent_new (issuer : I) : Coherent (new issuer) := by
  constructor <;> simp [new]

variable {w : World I} {i : Nat} {registration : Registration} {transactionId : TransactionId}

section

variable (h : w.Coherent)
include h

lemma Coherent.sound_at (hi : w.registrations[i]? = some registration) : registration.Sound :=
  h.sound registration (List.mem_of_getElem? hi)

/-- The identifier source is no part of coherence. -/
lemma Coherent.set_issuer (issuer : I) : Coherent { w with issuer := issuer } :=
  ⟨h.generation, h.next, h.entry, h.live, h.count, h.sound⟩

/-- What `remove_registration` takes away is the registration's own entry, and it
does so exactly while the registration is live. -/
lemma Coherent.removeRegistration_eq (hi : w.registrations[i]? = some registration) :
    removeRegistration w.pending registration.transactionId registration.generation =
      if registration.live w.closed then w.pending.erase registration.transactionId
      else w.pending := by
  have hgen := h.generation i registration hi
  unfold removeRegistration
  by_cases hlive : registration.live w.closed = true
  · obtain ⟨entry, hentry, hsender⟩ := h.live i registration hi hlive
    obtain ⟨_, _, hbelongs⟩ := h.entry _ entry hentry
    simp [hentry, hlive, hbelongs.generation, hsender, hgen]
  · rw [if_neg hlive]
    cases hlookup : w.pending.lookup registration.transactionId with
    | none => rfl
    | some entry =>
      obtain ⟨owner, howner, hbelongs⟩ := h.entry _ entry hlookup
      have hother : entry.generation ≠ registration.generation := by
        intro heq
        rw [hbelongs.generation, hgen] at heq
        rw [heq, hi] at howner
        cases howner
        exact hlive hbelongs.live
      simp [hother]

/-- **Replacing one registration.**  If the new one stays live exactly unless
`ends`, and the entry goes exactly when a live registration ends, coherence is
kept. -/
lemma Coherent.replace (registration' : Registration) (ends : Bool)
    (hi : w.registrations[i]? = some registration)
    (htid : registration'.transactionId = registration.transactionId)
    (hgen : registration'.generation = registration.generation)
    (hremote : registration'.remote = registration.remote)
    (hlive : registration'.live w.closed = (registration.live w.closed && !ends))
    (hawait : ∀ entry, w.pending.lookup registration.transactionId = some entry →
      entry.state = .awaiting → registration.accepted = [] → registration'.accepted = [])
    (hsound : registration'.Sound) :
    Coherent
      { w with
        pending :=
          if registration.live w.closed && ends then w.pending.erase registration.transactionId
          else w.pending
        registrations := w.registrations.set i registration' } := by
  obtain ⟨hlt, hget⟩ := List.getElem?_eq_some_iff.mp hi
  have hat : ∀ j other, (w.registrations.set i registration')[j]? = some other →
      (j = i ∧ other = registration') ∨ (j ≠ i ∧ w.registrations[j]? = some other) := by
    intro j other hj
    rw [List.getElem?_set] at hj
    split at hj
    · rename_i heq
      cases hj
      exact Or.inl ⟨heq.symm, rfl⟩
    · rename_i hne
      exact Or.inr ⟨fun heq => hne heq.symm, hj⟩
  have hself : (w.registrations.set i registration')[i]? = some registration' := by
    rw [List.getElem?_set]
    simp [hlt]
  -- An entry under another registration's number is not under this one's identifier.
  have hlookup : ∀ transactionId entry,
      (if registration.live w.closed && ends then w.pending.erase registration.transactionId
        else w.pending).lookup transactionId = some entry →
      w.pending.lookup transactionId = some entry ∧
        (entry.sender = i → (registration.live w.closed && ends) = false) := by
    intro transactionId entry hentry
    split at hentry
    · rename_i hends
      by_cases heq : transactionId = registration.transactionId
      · rw [heq, AList.lookup_erase] at hentry
        cases hentry
      · rw [AList.lookup_erase_ne heq] at hentry
        refine ⟨hentry, fun hsender => absurd ?_ heq⟩
        obtain ⟨owner, howner, hbelongs⟩ := h.entry _ entry hentry
        rw [hsender, hi] at howner
        cases howner
        exact hbelongs.transactionId.symm
    · rename_i hends
      exact ⟨hentry, fun _ => by simpa using hends⟩
  constructor
  · intro j other hj
    rcases hat j other hj with ⟨rfl, rfl⟩ | ⟨_, hj⟩
    · rw [hgen]
      exact h.generation _ _ hi
    · exact h.generation _ _ hj
  · simpa using h.next
  · intro transactionId entry hentry
    obtain ⟨hentry, hends⟩ := hlookup _ _ hentry
    obtain ⟨owner, howner, hbelongs⟩ := h.entry _ entry hentry
    by_cases hsender : entry.sender = i
    · rw [hsender, hi] at howner
      cases howner
      refine ⟨registration', by rw [hsender]; exact hself, hbelongs.generation,
        htid.trans hbelongs.transactionId, by rw [hremote]; exact hbelongs.source, ?_, ?_⟩
      · have hkeep := hends hsender
        rw [hbelongs.live, Bool.true_and] at hkeep
        rw [hlive, hbelongs.live, hkeep]
        rfl
      · intro hstate
        exact hawait entry (hbelongs.transactionId ▸ hentry) hstate (hbelongs.awaiting hstate)
    · refine ⟨owner, ?_, hbelongs⟩
      rw [List.getElem?_set, if_neg (Ne.symm hsender)]
      exact howner
  · intro j other hj hother
    rcases hat j other hj with ⟨rfl, rfl⟩ | ⟨hne, hj⟩
    · rw [hlive, Bool.and_eq_true] at hother
      obtain ⟨entry, hentry, hsender⟩ := h.live _ _ hi hother.1
      refine ⟨entry, ?_, hsender⟩
      rw [htid]
      simp only [hother.1, Bool.true_and]
      rw [if_neg (by simpa using hother.2)]
      exact hentry
    · obtain ⟨entry, hentry, hsender⟩ := h.live _ _ hj hother
      refine ⟨entry, ?_, hsender⟩
      dsimp only
      split
      · rw [AList.lookup_erase_ne]
        · exact hentry
        · intro heq
          rename_i hends
          rw [Bool.and_eq_true] at hends
          obtain ⟨mine, hmine, hmineSender⟩ := h.live _ _ hi hends.1
          rw [heq, hmine] at hentry
          cases hentry
          exact hne (hsender.symm.trans hmineSender)
      · exact hentry
  · dsimp only
    rw [List.countP_set hlt, hget, hlive]
    by_cases hl : registration.live w.closed = true
    · obtain ⟨entry, hentry, _⟩ := h.live _ _ hi hl
      have hmem : registration.transactionId ∈ w.pending.keys := by
        rw [← AList.mem_keys, ← AList.lookup_isSome, hentry]
        rfl
      have hpos : 0 < w.registrations.countP (Registration.live w.closed) :=
        List.countP_pos_iff.mpr ⟨registration, List.mem_of_getElem? hi, hl⟩
      cases ends with
      | true =>
        simp only [hl, Bool.and_self, if_true, AList.keys_erase, Bool.not_true, Bool.and_false,
          Bool.false_eq_true, if_false, Nat.add_zero, ← h.count]
        exact @List.length_erase_of_mem _ instBEqOfDecidableEq _ _ _ hmem
      | false => simp [hl, h.count]; omega
    · simp [hl, h.count]
  · intro other hother
    rcases List.mem_or_eq_of_mem_set hother with hother | rfl
    · exact h.sound _ hother
    · exact hsound

/-! ## One event -/

/-- An owner's event keeps coherence. -/
lemma Coherent.own {e : Event} {reply : Reply} {w' : World I}
    (hown : w.own e i = some (reply, w')) : w'.Coherent := by
  obtain ⟨registration, hi, hrest⟩ := Option.bind_eq_some_iff.mp hown
  obtain ⟨⟨registration', dropsGuard⟩, hadv, heq⟩ := Option.map_eq_some_iff.mp hrest
  cases heq
  have hadv := Registration.advance_advanced hadv
  have hlive : registration'.live w.closed = (registration.live w.closed && !dropsGuard) := by
    unfold Registration.live
    rw [hadv.guardHeld, hadv.waiterGone]
    cases w.closed <;> cases registration.phase.guardHeld <;> cases dropsGuard <;>
      cases registration.waiterGone <;> rfl
  have hpending : (if dropsGuard then
        removeRegistration w.pending registration.transactionId registration.generation
      else w.pending) =
      if registration.live w.closed && dropsGuard then
        w.pending.erase registration.transactionId
      else w.pending := by
    rw [h.removeRegistration_eq hi]
    cases dropsGuard <;> cases registration.live w.closed <;> rfl
  rw [hpending]
  exact h.replace _ _ hi hadv.transactionId hadv.generation hadv.remote hlive
    (fun _ _ _ hnil => hadv.accepted.trans hnil) ((h.sound_at hi).advanced hadv)

/-- Marking an entry delivered keeps coherence. -/
lemma Coherent.mark_delivered {entry : PendingEntry}
    (hentry : w.pending.lookup transactionId = some entry) :
    Coherent
      { w with pending := w.pending.insert transactionId { entry with state := .delivered } } := by
  have hmem : transactionId ∈ w.pending.keys := by
    rw [← AList.mem_keys, ← AList.lookup_isSome, hentry]
    rfl
  refine ⟨h.generation, h.next, ?_, ?_, ?_, h.sound⟩
  · intro other entry' hother
    by_cases heq : other = transactionId
    · rw [heq, AList.lookup_insert] at hother
      cases hother
      obtain ⟨owner, howner, hb⟩ := h.entry _ entry hentry
      exact ⟨owner, howner, hb.generation, heq ▸ hb.transactionId, hb.source, hb.live,
        fun hstate => by cases hstate⟩
    · rw [AList.lookup_insert_ne heq] at hother
      exact h.entry _ _ hother
  · intro i registration hi hlive
    obtain ⟨mine, hmine, hsender⟩ := h.live i registration hi hlive
    by_cases heq : registration.transactionId = transactionId
    · rw [heq, hentry] at hmine
      cases hmine
      exact ⟨{ entry with state := .delivered }, by rw [heq, AList.lookup_insert], hsender⟩
    · exact ⟨mine, by rw [AList.lookup_insert_ne heq]; exact hmine, hsender⟩
  · rw [← h.count, AList.keys_insert, List.length_cons]
    have hpos : 0 < w.pending.keys.length := List.length_pos_of_mem hmem
    have hlen := @List.length_erase_of_mem _ instBEqOfDecidableEq _ _ _ hmem
    omega

end

lemma modify_eq_set {l : List Registration} (hi : l[i]? = some registration)
    (f : Registration → Registration) : l.modify i f = l.set i (f registration) := by
  rw [List.modify_eq_set_getElem?, hi]
  rfl

/-- A delivery keeps coherence. -/
lemma Coherent.deliver (h : w.Coherent) (source : SocketAddr) (message : KrpcMessage) :
    (w.deliver source message).2.Coherent := by
  unfold World.deliver
  split
  · exact h
  rename_i htype
  split
  · exact h
  rename_i transactionId hid
  dsimp only
  split
  · exact h
  split
  · exact h
  rename_i entry hentry
  split
  · exact h
  rename_i hsource
  split
  · exact h
  rename_i hstate
  obtain ⟨owner, howner, hb⟩ := h.entry _ entry hentry
  split
  · -- The response goes into the owner's channel, which nothing has entered before.
    rename_i hsent
    have hawaiting : entry.state = .awaiting := by
      cases hs : entry.state
      · rfl
      · exact absurd hs hstate
    have haccepted : owner.accepted = [] := hb.awaiting hawaiting
    have hreceived : owner.received = [] := by
      have hsub := (h.sound_at howner).received
      rw [haccepted, List.sublist_nil, List.append_eq_nil_iff] at hsub
      exact hsub.1
    have hopen : owner.phase.receiverOpen = true := by
      by_contra hclosed
      simp [World.trySend, howner, hclosed] at hsent
    have hdelivered := h.mark_delivered hentry
    have hidEq : message.transactionId = transactionId.val := by
      unfold Bytes.toFixed at hid
      split at hid
      · cases hid
        rfl
      · cases hid
    have := hdelivered.replace
      { owner with
        buffer := some ⟨normalizeSocketAddr source, message⟩
        accepted := owner.accepted ++ [⟨normalizeSocketAddr source, message⟩] }
      false howner rfl rfl rfl (by simp [Registration.live])
      (by
        intro other hother hoState
        rw [hb.transactionId, AList.lookup_insert] at hother
        cases hother
        cases hoState)
      { accepted_length := by simp [haccepted]
        answers := by
          intro a ha
          simp only [haccepted, List.nil_append, List.mem_singleton] at ha
          subst ha
          refine ⟨?_, hidEq.trans (by rw [hb.transactionId]), ?_⟩
          · simp only [ne_eq, not_and_or, not_not] at htype
            exact htype
          · rw [hb.source]
            simpa using hsource
        received := by simp [haccepted, hreceived]
        waiterGone := fun hgone => by
          have := (h.sound_at howner).waiterGone hgone
          rw [hopen] at this
          cases this }
    simpa [modify_eq_set howner] using this
  · exact h.mark_delivered hentry
  · -- The receiver is gone: the entry goes, and with it the registration's liveness.
    rename_i hclosed
    have hopen : owner.phase.receiverOpen = false := by
      by_contra hopen
      simp only [World.trySend, howner, Bool.not_eq_false] at hclosed hopen
      rw [if_pos hopen] at hclosed
      split at hclosed <;> cases hclosed
    have := h.replace { owner with waiterGone := true } true
      howner rfl rfl rfl (by simp [Registration.live]) (fun _ _ _ hnil => hnil)
      { accepted_length := (h.sound_at howner).accepted_length
        answers := (h.sound_at howner).answers
        received := (h.sound_at howner).received
        waiterGone := fun _ => hopen }
    simpa [modify_eq_set howner, hb.live, hb.transactionId] using this

/-- The selection loop returns only identifiers that are free. -/
lemma selectId_not_mem {issue : I → Except TransactionIdSourceError TransactionId × I}
    {pending : AList fun _ : TransactionId => PendingEntry} :
    ∀ {attempts : Nat} {issuer issuer' : I},
      selectId issue pending attempts issuer = (.ok transactionId, issuer') →
        transactionId ∉ pending
  | 0, _, _, h => by simp [selectId] at h
  | attempts + 1, issuer, issuer', h => by
    simp only [selectId] at h
    split at h
    · cases h
    · split at h
      · exact selectId_not_mem h
      · rename_i hfree
        cases h
        exact hfree

/-- A fresh registration and its entry keep coherence. -/
lemma Coherent.insert (h : w.Coherent) (hopen : w.closed = false) (issuer : I)
    (hfree : transactionId ∉ w.pending) (remote : SocketAddr) (message : KrpcMessage) :
    Coherent
      { w with
        issuer := issuer
        nextGeneration := w.nextGeneration + 1
        pending := w.pending.insert transactionId
          ⟨w.nextGeneration, normalizeSocketAddr remote, w.registrations.length, .awaiting⟩
        registrations := w.registrations ++
          [⟨transactionId, w.nextGeneration, remote, message, .registered, none, [], [], false⟩] } := by
  have hlive : Registration.live w.closed
      ⟨transactionId, w.nextGeneration, remote, message, .registered, none, [], [], false⟩ = true := by
    simp [Registration.live, hopen, Phase.guardHeld]
  have hat : ∀ (i : Nat) (registration : Registration),
      (w.registrations ++ [⟨transactionId, w.nextGeneration, remote, message, .registered, none,
        [], [], false⟩])[i]? = some registration →
      w.registrations[i]? = some registration ∨ (i = w.registrations.length ∧ registration =
        ⟨transactionId, w.nextGeneration, remote, message, .registered, none, [], [], false⟩) := by
    intro i registration hi
    rw [List.getElem?_append] at hi
    split at hi
    · exact Or.inl hi
    · obtain ⟨hlt, heq⟩ := List.getElem?_eq_some_iff.mp hi
      simp only [List.length_singleton, Nat.lt_one_iff] at hlt
      refine Or.inr ⟨by omega, ?_⟩
      simpa using heq.symm
  have hold : ∀ {i : Nat} {registration : Registration}, w.registrations[i]? = some registration →
      ∀ l, (w.registrations ++ l)[i]? = some registration := by
    intro i registration hi l
    rw [List.getElem?_append_left (List.getElem?_eq_some_iff.mp hi).1]
    exact hi
  constructor
  · intro i registration hi
    rcases hat i registration hi with hi | ⟨rfl, rfl⟩
    · exact h.generation _ _ hi
    · exact h.next
  · simp [h.next]
  · intro other entry hentry
    by_cases heq : other = transactionId
    · rw [heq, AList.lookup_insert] at hentry
      cases hentry
      exact ⟨_, by simp, h.next, heq.symm, rfl, hlive, fun _ => rfl⟩
    · rw [AList.lookup_insert_ne heq] at hentry
      obtain ⟨owner, howner, hb⟩ := h.entry _ _ hentry
      exact ⟨owner, hold howner _, hb⟩
  · intro i registration hi hl
    rcases hat i registration hi with hi | ⟨rfl, rfl⟩
    · obtain ⟨entry, hentry, hsender⟩ := h.live _ _ hi hl
      refine ⟨entry, ?_, hsender⟩
      rw [AList.lookup_insert_ne]
      · exact hentry
      · intro heq
        refine hfree (AList.lookup_isSome.mp ?_)
        rw [← heq, hentry]
        rfl
    · exact ⟨_, AList.lookup_insert _, rfl⟩
  · have hnot : transactionId ∉ w.pending.keys := by rwa [← AList.mem_keys]
    simp only [AList.keys_insert, List.length_cons, List.countP_append, List.countP_singleton,
      hlive, if_true]
    rw [← h.count, @List.erase_of_not_mem _ instBEqOfDecidableEq _ _ _ hnot]
  · intro registration hmem
    rcases List.mem_append.mp hmem with hmem | hmem
    · exact h.sound _ hmem
    · obtain rfl := List.mem_singleton.mp hmem
      constructor <;> simp

section Run

variable (issue : I → Except TransactionIdSourceError TransactionId × I)

/-- Registering either fails, and leaves everything but the identifier source as
it was, or adds one registration under a free identifier. -/
lemma register_cases (w : World I) (remote : SocketAddr) (query : ByteString) (args : MessageArgs) :
    (∃ error issuer,
      w.register issue remote query args = (.registerFailed error, { w with issuer := issuer })) ∨
    (w.closed = false ∧ ∃ transactionId issuer, transactionId ∉ w.pending ∧
      w.register issue remote query args =
        (.registered w.registrations.length,
          { w with
            issuer := issuer
            nextGeneration := w.nextGeneration + 1
            pending := w.pending.insert transactionId
              ⟨w.nextGeneration, normalizeSocketAddr remote, w.registrations.length, .awaiting⟩
            registrations := w.registrations ++
              [⟨transactionId, w.nextGeneration, remote, queryMessage transactionId query args,
                .registered, none, [], [], false⟩] })) := by
  unfold World.register
  split
  · exact Or.inl ⟨_, w.issuer, rfl⟩
  rename_i hclosed
  split
  · exact Or.inl ⟨_, w.issuer, rfl⟩
  split
  · exact Or.inl ⟨_, _, rfl⟩
  rename_i transactionId issuer hselect
  split
  · refine Or.inr ⟨by simpa using hclosed, transactionId, issuer, selectId_not_mem hselect, rfl⟩
  · exact Or.inl ⟨_, _, rfl⟩

variable {e : Event} {reply : Reply} {w' : World I}

/-- **Every event keeps coherence.** -/
lemma Coherent.step (h : w.Coherent) (hstep : w.step issue e = some (reply, w')) :
    w'.Coherent := by
  cases e with
  | register remote query args =>
    simp only [World.step, Option.some.injEq] at hstep
    rcases register_cases issue w remote query args with
      ⟨error, issuer, heq⟩ | ⟨hopen, transactionId, issuer, hfree, heq⟩
    · rw [heq] at hstep
      cases hstep
      exact h.set_issuer issuer
    · rw [heq] at hstep
      cases hstep
      exact h.insert hopen issuer hfree remote _
  | deliver source message =>
    simp only [World.step, Option.some.injEq] at hstep
    cases hstep
    exact h.deliver source message
  | close =>
    simp only [World.step, Option.some.injEq] at hstep
    cases hstep
    refine ⟨h.generation, h.next, by simp, ?_, ?_, h.sound⟩
    · intro i registration _ hlive
      simp [Registration.live] at hlive
    · exact (List.countP_eq_zero.mpr fun registration _ => by simp [Registration.live]).symm
  | markSent i | abandon i | dropReceiver i | recv i | timeout i | cancel i | finishReceiver i
  | finishGuard i => exact h.own hstep

/-- A closed registry stays closed, registers nothing and delivers nothing. -/
lemma closed_step (hclosed : w.closed = true) (hstep : w.step issue e = some (reply, w')) :
    w'.closed = true ∧ (∀ i, reply ≠ .registered i) ∧ reply ≠ .delivery .delivered := by
  cases e with
  | register remote query args =>
    simp only [World.step, World.register, hclosed, if_true, Option.some.injEq] at hstep
    cases hstep
    exact ⟨hclosed, fun i => by simp, by simp⟩
  | deliver source message =>
    simp only [World.step, Option.some.injEq] at hstep
    cases hstep
    unfold World.deliver
    simp only [hclosed, if_true]
    split
    · exact ⟨hclosed, by simp, by simp⟩
    · split <;> exact ⟨hclosed, by simp, by simp⟩
  | close =>
    cases hstep
    exact ⟨rfl, fun i => by simp, by simp⟩
  | markSent i | abandon i | dropReceiver i | recv i | timeout i | cancel i | finishReceiver i
  | finishGuard i =>
    obtain ⟨registration, hi, hrest⟩ := Option.bind_eq_some_iff.mp hstep
    obtain ⟨_, _, heq⟩ := Option.map_eq_some_iff.mp hrest
    cases heq
    exact ⟨hclosed, fun i => by simp, by simp⟩

/-- With the registry closed nothing is pending. -/
lemma Coherent.pendingCount_of_closed (h : w.Coherent) (hclosed : w.closed = true) :
    w.pendingCount = 0 := by
  rw [pendingCount, h.count, List.countP_eq_zero]
  intro registration _
  simp [Registration.live, hclosed]

/-- Two live registrations never share an identifier. -/
lemma Coherent.live_injective (h : w.Coherent) {j : Nat} {ri rj : Registration}
    (hi : w.registrations[i]? = some ri) (hj : w.registrations[j]? = some rj)
    (hli : ri.live w.closed = true) (hlj : rj.live w.closed = true)
    (heq : ri.transactionId = rj.transactionId) : i = j := by
  obtain ⟨ei, hei, rfl⟩ := h.live i ri hi hli
  obtain ⟨ej, hej, rfl⟩ := h.live j rj hj hlj
  rw [heq, hej] at hei
  cases hei
  rfl

/-- **A guard removes only its own entry.**  Whatever an owner does, the entry of
any other registration stays, also one that reuses the identifier. -/
lemma Coherent.own_keeps_others (h : w.Coherent) (hown : w.own e i = some (reply, w'))
    {entry : PendingEntry} (hentry : w.pending.lookup transactionId = some entry)
    (hother : entry.sender ≠ i) : w'.pending.lookup transactionId = some entry := by
  obtain ⟨registration, hi, hrest⟩ := Option.bind_eq_some_iff.mp hown
  obtain ⟨⟨registration', dropsGuard⟩, _, heq⟩ := Option.map_eq_some_iff.mp hrest
  cases heq
  dsimp only
  split
  · rw [h.removeRegistration_eq hi]
    split
    · rename_i hlive
      rw [AList.lookup_erase_ne]
      · exact hentry
      · intro heq
        obtain ⟨mine, hmine, hsender⟩ := h.live i registration hi hlive
        rw [← heq, hentry] at hmine
        cases hmine
        exact hother hsender
    · exact hentry
  · exact hentry

/-- **Correlation safety.**  In every state that any interleaving of registry calls
and owners' steps can reach:

1. live entries have distinct identifiers, and so have live registrations;
2. at most one response ever enters a registration's channel, a response or error
   envelope with its identifier from its normalised address, and only such a
   response is received from it;
3. an owner's step, guard drops included, keeps every other registration's entry;
4. a failed registration changes neither the pending map nor the generation;
5. once the registry was closed nothing is pending, and no call registers or
   delivers any more;
6. the pending count is the number of live registrations: those of an open
   registry whose guard is held, except where `finish` had already dropped the
   receiver and a delivery removed the entry before the guard could. -/
theorem correlation_safety (issuer : I) {events : List Event} {replies : List Reply}
    {w : World I}
    (hrun : Machine.run (World.step issue) (World.new issuer) events = some (replies, w)) :
    (w.pending.keys.Nodup ∧
      ∀ (i j : Nat) (ri rj : Registration), w.registrations[i]? = some ri →
        w.registrations[j]? = some rj → ri.live w.closed = true → rj.live w.closed = true →
        ri.transactionId = rj.transactionId → i = j) ∧
    (∀ registration ∈ w.registrations, registration.accepted.length ≤ 1 ∧
      registration.received.Sublist registration.accepted ∧
      ∀ a ∈ registration.accepted, registration.Answers a) ∧
    (∀ (e : Event) (i : Nat) (reply : Reply) (w' : World I) (transactionId : TransactionId)
      (entry : PendingEntry), e.owner = some i → w.step issue e = some (reply, w') →
      w.pending.lookup transactionId = some entry → entry.sender ≠ i →
      w'.pending.lookup transactionId = some entry) ∧
    (∀ (remote : SocketAddr) (query : ByteString) (args : MessageArgs) (error : RegisterError)
      (w' : World I),
      w.step issue (.register remote query args) = some (.registerFailed error, w') →
      w'.pending = w.pending ∧ w'.nextGeneration = w.nextGeneration) ∧
    (.close ∈ events → w.pendingCount = 0 ∧
      ∀ (e : Event) (reply : Reply) (w' : World I), w.step issue e = some (reply, w') →
        (∀ i, reply ≠ .registered i) ∧ reply ≠ .delivery .delivered) ∧
    (w.pendingCount = w.registrations.countP (Registration.live w.closed) ∧
      ∀ registration ∈ w.registrations, registration.waiterGone = true →
        registration.phase.receiverOpen = false) := by
  have h : w.Coherent :=
    Machine.invariant_run (fun h hstep => h.step issue hstep) events (coherent_new issuer) hrun
  refine ⟨⟨w.pending.keys_nodup, fun i j ri rj => h.live_injective⟩, ?_, ?_, ?_, ?_, h.count, ?_⟩
  · intro registration hmem
    have hs := h.sound registration hmem
    exact ⟨hs.accepted_length, (List.sublist_append_left _ _).trans hs.received, hs.answers⟩
  · intro e i reply w' transactionId entry howner hstep hentry hother
    have hown : w.own e i = some (reply, w') := by
      cases e <;> cases howner <;> exact hstep
    exact h.own_keeps_others hown hentry hother
  · intro remote query args error w' hstep
    simp only [World.step, Option.some.injEq] at hstep
    rcases register_cases issue w remote query args with ⟨_, _, heq⟩ | ⟨_, _, _, _, heq⟩
    · rw [heq] at hstep
      cases hstep
      exact ⟨rfl, rfl⟩
    · rw [heq] at hstep
      cases hstep
  · intro hclose
    obtain ⟨_, before, after, later, _, hclosing, hlater⟩ :=
      Machine.exists_step_of_mem hclose hrun
    have hafter : after.closed = true := by
      cases hclosing
      rfl
    have hclosed : w.closed = true :=
      Machine.invariant_run (fun h hstep => (closed_step issue h hstep).1) later hafter hlater
    exact ⟨h.pendingCount_of_closed hclosed, fun e reply w' hstep => (closed_step issue hclosed hstep).2⟩
  · intro registration hmem
    exact (h.sound registration hmem).waiterGone

end Run

/-- A query answered from its own address, then received and finished. -/
def answeredQuery : List Event :=
  [.register (.v4 ⟨[127, 0, 0, 1], rfl⟩ 6881) [0x70]
      ⟨Id20.zero, none, none, [], none, false, none, I64.zero, I64.zero⟩,
    .markSent 0,
    .deliver (.v4 ⟨[127, 0, 0, 1], rfl⟩ 6881)
      ⟨[0x61, 0x61], [0x72], [], none, none, none, none, false, []⟩,
    .recv 0, .finishReceiver 0, .finishGuard 0]

theorem correlation_safety_answered :
    ∃ (replies : List Reply) (w : World Unit),
      Machine.run (World.step fun _ => (.ok ⟨[0x61, 0x61], rfl⟩, ())) (World.new ())
        answeredQuery = some (replies, w) ∧
      replies = [.registered 0, .done, .delivery .delivered, .done, .done, .done] ∧
      w.pendingCount = w.registrations.countP (Registration.live w.closed) := by
  have hreplies : (Machine.run (World.step fun _ => (.ok ⟨[0x61, 0x61], rfl⟩, ())) (World.new ())
      answeredQuery).map Prod.fst =
        some [.registered 0, .done, .delivery .delivered, .done, .done, .done] := by
    rfl
  obtain ⟨⟨replies, w⟩, hrun, heq⟩ := Option.map_eq_some_iff.mp hreplies
  exact ⟨replies, w, hrun, heq, (correlation_safety _ () hrun).2.2.2.2.2.1⟩

end World

end Bitmagnet.Dht
