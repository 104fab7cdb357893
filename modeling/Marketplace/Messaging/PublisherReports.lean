import Marketplace.Messaging.Publisher

/-!
# Does a publish report what became of its message?

The set of returned ids is shared by all calls and keyed by the event, so a call may be told about
the message of another one. Where the returns can be told apart, every call reports its own.
-/

namespace Marketplace.EventPublisher

open Transition

variable {state after : State} {call : Call} {action : Action} {sent : Sent} {id : Text}

/-- Every publish of every run is reported truthfully. -/
def ReportsTruthfully : Prop :=
  ∀ state, Reachable step State.init state → Truthful state

/-- What is known of one call. -/
structure CallOk (state : State) (call : Call) : Prop where
  listed : ∀ sent, state.messages call = some sent → call ∈ state.sent
  unsent : (state.calls call = .idle ∨ ∃ event routingKey channel,
    state.calls call = .connecting event routingKey channel) → state.messages call = none
  waiting : ∀ event routingKey channel awaited,
    state.calls call = .waiting event routingKey channel awaited → call ∈ awaited ∧
      ∃ sent, state.messages call = some sent ∧ sent.message = messageOf event routingKey
  /-- Only a call that rejected over another message is over before its own is confirmed. -/
  final : (state.calls call).isSettled = true → state.calls call ≠ .threw →
    ∀ sent, state.messages call = some sent → sent.confirm ≠ none
  resolved : (state.calls call).isSettled = true →
    (state.calls call = .resolved ↔ Accepted state call)
  unroutable : (state.calls call).isSettled = true → ∀ error,
    (state.calls call = .unroutable error ↔ Returned state call error)

/-- The message of the call has this id and was returned, and the call has not been told. -/
def PendingOf (state : State) (id : Text) (call : Call) : Prop :=
  (state.calls call).isUnroutable = false ∧
    ∃ sent, state.messages call = some sent ∧ sent.messageId = id ∧ sent.returned = true

def Pending (state : State) (id : Text) : Prop := ∃ call, PendingOf state id call

structure Inv (state : State) : Prop where
  calls : ∀ call, CallOk state call
  entries : ∀ id, id ∈ state.returned ↔ Pending state id

theorem Inv.truthful (hinv : Inv state) : Truthful state := fun call hsettled =>
  ⟨(hinv.calls call).resolved hsettled, (hinv.calls call).unroutable hsettled⟩

/-! ### Calls without a message -/

/-- A call without a message is in a phase that says nothing about messages. -/
theorem callOk_of_unsent (hmessage : state.messages call = none)
    (hwaiting : ∀ event routingKey channel awaited,
      state.calls call ≠ .waiting event routingKey channel awaited)
    (hresolved : state.calls call ≠ .resolved)
    (hunroutable : (state.calls call).isUnroutable = false) :
    CallOk state call where
  listed sent hsent := by simp [hmessage] at hsent
  unsent _ := hmessage
  waiting event routingKey channel awaited hphase := absurd hphase (hwaiting _ _ _ _)
  final _ _ sent hsent := by simp [hmessage] at hsent
  resolved _ := by simp [Accepted, hmessage, hresolved]
  unroutable _ error := by
    refine iff_of_false ?_ ?_
    · intro hphase
      simp [hphase, Phase.isUnroutable] at hunroutable
    · simp [Returned, hmessage]

theorem inv_init : Inv State.init where
  calls call := by apply callOk_of_unsent <;> simp [State.init, Phase.isUnroutable]
  entries id := by simp [Pending, PendingOf, State.init]

/-! ### Frame lemmas -/

section Frame

variable (hphase : after.calls call = state.calls call)
  (hmessage : after.messages call = state.messages call)

include hphase hmessage

/-- A call that keeps its phase and its message keeps what is known of it. -/
theorem CallOk.frame (hok : CallOk state call) (hsent : ∀ other ∈ state.sent, other ∈ after.sent) :
    CallOk after call where
  listed sent hmessage' := hsent call (hok.listed sent (hmessage ▸ hmessage'))
  unsent := by
    rw [hphase, hmessage]
    exact hok.unsent
  waiting := by
    rw [hphase, hmessage]
    exact hok.waiting
  final := by
    rw [hphase, hmessage]
    exact hok.final
  resolved := by
    unfold Accepted
    rw [hphase, hmessage]
    exact hok.resolved
  unroutable := by
    unfold Returned
    rw [hphase, hmessage]
    exact hok.unroutable

theorem pendingOf_frame : PendingOf after id call ↔ PendingOf state id call := by
  unfold PendingOf
  rw [hphase, hmessage]

end Frame

theorem pending_congr (hall : ∀ call, PendingOf after id call ↔ PendingOf state id call) :
    Pending after id ↔ Pending state id :=
  exists_congr hall

/-- The steps that only move a call without a message, or a channel. -/
theorem Inv.unsent_step (hinv : Inv state) (hok : CallOk after call)
    (hmessage : state.messages call = none)
    (hcalls : ∀ other, other ≠ call → after.calls other = state.calls other)
    (hmessages : after.messages = state.messages) (hsent : after.sent = state.sent)
    (hreturned : after.returned = state.returned) : Inv after where
  calls other := by
    by_cases heq : other = call
    · exact heq ▸ hok
    · exact (hinv.calls other).frame (hcalls other heq) (congrFun hmessages other) fun _ hmem =>
        hsent ▸ hmem
  entries id := by
    rw [hreturned, hinv.entries]
    refine (pending_congr fun other => ?_).symm
    by_cases heq : other = call
    · simp [PendingOf, hmessages, heq, hmessage]
    · exact pendingOf_frame (hcalls other heq) (congrFun hmessages other)

/-- A channel changes its state. -/
theorem Inv.channels (hinv : Inv state) (hcalls : after.calls = state.calls)
    (hmessages : after.messages = state.messages) (hsent : after.sent = state.sent)
    (hreturned : after.returned = state.returned) : Inv after where
  calls call := (hinv.calls call).frame (congrFun hcalls call) (congrFun hmessages call)
    fun _ hmem => hsent ▸ hmem
  entries id := by
    rw [hreturned, hinv.entries]
    exact (pending_congr fun call =>
      pendingOf_frame (congrFun hcalls call) (congrFun hmessages call)).symm

/-! ### Sending -/

theorem publish_inv {event : OrderPlacedEvent} {routingKey : String} (hinv : Inv state)
    (hstep : publish state call event routingKey = some after) : Inv after := by
  unfold publish at hstep
  split at hstep
  case h_2 => cases hstep
  rename_i hidle
  have hmessage : state.messages call = none := (hinv.calls call).unsent (.inl hidle)
  split at hstep
  all_goals
    cases hstep
    refine hinv.unsent_step (callOk_of_unsent hmessage ?_ ?_ ?_) hmessage
      (fun other => State.calls_goto_of_ne state call _) rfl rfl rfl
    · intro event routingKey channel awaited
      simp [State.goto, State.setChannel]
    · simp [State.goto, State.setChannel]
    · simp [State.goto, State.setChannel, Phase.isUnroutable]

theorem send_inv (hinv : Inv state) (hstep : send state call = some after) : Inv after := by
  unfold send at hstep
  split at hstep
  case h_2 => cases hstep
  rename_i event routingKey channel hphase
  have hmessage : state.messages call = none :=
    (hinv.calls call).unsent (.inr ⟨event, routingKey, channel, hphase⟩)
  split at hstep
  case h_3 => cases hstep
  case h_2 =>
    cases hstep
    refine hinv.unsent_step (callOk_of_unsent hmessage ?_ ?_ ?_) hmessage
      (fun other => State.calls_goto_of_ne state call _) rfl rfl rfl
    all_goals simp [Phase.isUnroutable]
  cases hstep
  constructor
  · intro other
    by_cases heq : other = call
    · subst heq
      constructor <;> simp [State.goto, Phase.isSettled]
      rintro event routingKey channel awaited rfl rfl rfl rfl
      simp
    · apply (hinv.calls other).frame
      · simp [State.goto, heq]
      · simp [heq]
      · intro other hmem
        exact List.mem_cons_of_mem call hmem
  · intro id
    refine (hinv.entries id).trans (pending_congr fun other => ?_).symm
    by_cases heq : other = call
    · simp [PendingOf, heq, hmessage]
    · exact pendingOf_frame (by simp [State.goto, heq]) (by simp [heq])

/-! ### Frames -/

theorem unconfirmed_eq_some (hsent : unconfirmed state call = some sent) :
    state.messages call = some sent ∧ sent.confirm = none := by
  obtain ⟨hmessage, hopen⟩ := Option.filter_eq_some_iff.mp hsent
  simp only [Bool.and_eq_true, Option.isNone_iff_eq_none] at hopen
  exact ⟨hmessage, hopen.1⟩

/-- Frames come only about messages whose calls are not over, or have thrown. -/
theorem Inv.unsettled (hinv : Inv state) (hmessage : state.messages call = some sent)
    (hconfirm : sent.confirm = none) (hthrew : state.calls call ≠ .threw) :
    (state.calls call).isSettled = false := by
  by_contra hsettled
  exact (hinv.calls call).final (eq_true_of_ne_false hsettled) hthrew sent hmessage hconfirm

theorem isUnroutable_of_unsettled {phase : Phase} (hunsettled : phase.isSettled = false) :
    phase.isUnroutable = false := by
  cases phase <;> simp_all [Phase.isSettled, Phase.isUnroutable]

/-- What a frame about the message of a running call keeps of that call. -/
theorem CallOk.setMessage (hok : CallOk state call) (hmessage : state.messages call = some sent)
    (hcalls : after.calls call = state.calls call) (hsent : after.sent = state.sent)
    (hunsettled : (state.calls call).isSettled = false) {next : Sent}
    (hnext : after.messages call = some next) (hcontent : next.message = sent.message) :
    CallOk after call where
  listed _ _ := hsent ▸ hok.listed sent hmessage
  unsent hphase := by
    rw [hcalls] at hphase
    simp [hok.unsent hphase] at hmessage
  waiting event routingKey channel awaited hphase := by
    rw [hcalls] at hphase
    obtain ⟨hmem, current, hcurrent, hevent⟩ := hok.waiting event routingKey channel awaited hphase
    have heq : sent = current := by simpa [hmessage] using hcurrent
    exact ⟨hmem, next, hnext, by rw [hcontent, heq, hevent]⟩
  final hsettled := by simp [hcalls, hunsettled] at hsettled
  resolved hsettled := by simp [hcalls, hunsettled] at hsettled
  unroutable hsettled := by simp [hcalls, hunsettled] at hsettled

theorem basicReturn_cases (hstep : basicReturn state call = some after) :
    ∃ sent, state.messages call = some sent ∧ sent.confirm = none ∧ sent.returned = false ∧
      after.calls = state.calls ∧ after.sent = state.sent ∧
      after.messages = Function.update state.messages call (some { sent with returned := true }) ∧
      after.returned = if sent.messageId = [] ∨ sent.messageId ∈ state.returned then state.returned
        else sent.messageId :: state.returned := by
  unfold basicReturn at hstep
  split at hstep
  case h_2 => cases hstep
  rename_i sent hsent
  obtain ⟨hmessage, hconfirm⟩ := unconfirmed_eq_some hsent
  split at hstep
  case isTrue => cases hstep
  rename_i hnot
  cases hstep
  exact ⟨sent, hmessage, hconfirm, eq_false_of_ne_true hnot, rfl, rfl, rfl, rfl⟩

theorem confirm_cases {verdict : Confirm} (hstep : confirm state call verdict = some after) :
    ∃ sent, state.messages call = some sent ∧ sent.confirm = none ∧
      after.calls = state.calls ∧ after.sent = state.sent ∧ after.returned = state.returned ∧
      after.messages =
        Function.update state.messages call (some { sent with confirm := some verdict }) := by
  unfold confirm at hstep
  split at hstep
  case h_2 => cases hstep
  rename_i sent hsent
  obtain ⟨hmessage, hconfirm⟩ := unconfirmed_eq_some hsent
  cases hstep
  exact ⟨sent, hmessage, hconfirm, rfl, rfl, rfl, rfl⟩

theorem basicReturn_inv (hinv : Inv state) (hok : Attributable state (.basicReturn call))
    (hstep : basicReturn state call = some after) : Inv after := by
  obtain ⟨sent, hmessage, hconfirm, hnot, hcalls, hsent, hmessages, hreturned⟩ :=
    basicReturn_cases hstep
  have hunsettled := hinv.unsettled hmessage hconfirm hok.1
  have hself : after.messages call = some { sent with returned := true } := by simp [hmessages]
  have hothers (other : Call) (hne : other ≠ call) :
      after.messages other = state.messages other := by
    simp [hmessages, hne]
  -- the message becomes pending, and its id is in the set from now on
  have hpending (id : Text) : Pending after id ↔ id = sent.messageId ∨ Pending state id := by
    constructor
    · rintro ⟨other, hother⟩
      by_cases heq : other = call
      · subst heq
        obtain ⟨-, current, hcurrent, rfl, -⟩ := hother
        rw [hself, Option.some.injEq] at hcurrent
        exact .inl (hcurrent ▸ rfl)
      · exact .inr ⟨other, (pendingOf_frame (congrFun hcalls other) (hothers other heq)).mp hother⟩
    · rintro (rfl | ⟨other, hother⟩)
      · refine ⟨call, ?_, _, hself, rfl, rfl⟩
        rw [hcalls]
        exact isUnroutable_of_unsettled hunsettled
      · refine ⟨other, (pendingOf_frame (congrFun hcalls other) (hothers other ?_)).mpr hother⟩
        rintro rfl
        obtain ⟨-, current, hcurrent, -, hreturned⟩ := hother
        simp_all
  constructor
  · intro other
    by_cases heq : other = call
    · subst heq
      exact (hinv.calls other).setMessage hmessage (congrFun hcalls other) hsent hunsettled
        hself rfl
    · exact (hinv.calls other).frame (congrFun hcalls other) (hothers other heq) fun _ hmem =>
        hsent ▸ hmem
  · intro id
    have hid : sent.messageId ≠ [] := hok.2 sent hmessage
    rw [hpending, ← hinv.entries id, hreturned]
    by_cases hmem : sent.messageId ∈ state.returned
    · simp only [hmem, or_true, ↓reduceIte]
      constructor
      · exact .inr
      · rintro (rfl | hold)
        · exact hmem
        · exact hold
    · simp [hid, hmem]

theorem confirm_inv {verdict : Confirm} (hinv : Inv state)
    (hok : state.calls call = .threw → verdict = .nack)
    (hstep : confirm state call verdict = some after) : Inv after := by
  obtain ⟨sent, hmessage, hconfirm, hcalls, hsent, hreturned, hmessages⟩ := confirm_cases hstep
  have hself : after.messages call = some { sent with confirm := some verdict } := by
    simp [hmessages]
  have hothers (other : Call) (hne : other ≠ call) :
      after.messages other = state.messages other := by
    simp [hmessages, hne]
  have hcall := hinv.calls call
  constructor
  · intro other
    by_cases heq : other = call
    · subst heq
      by_cases hthrew : state.calls other = .threw
      · -- the nack of a message whose call rejected over another one
        have hnot : sent.returned = false := by
          have hnot := (hcall.unroutable (by simp [hthrew, Phase.isSettled])
            ⟨sent.message.content.eventId, sent.message.routingKey⟩).not.mp (by simp [hthrew])
          simpa [Returned, hmessage] using hnot
        constructor <;> simp [hself, hcalls, hthrew, Accepted, Returned, hok hthrew, hnot]
        exact hsent ▸ hcall.listed sent hmessage
      · have hunsettled := hinv.unsettled hmessage hconfirm hthrew
        exact hcall.setMessage hmessage (congrFun hcalls other) hsent hunsettled hself rfl
    · exact (hinv.calls other).frame (congrFun hcalls other) (hothers other heq) fun _ hmem =>
        hsent ▸ hmem
  · intro id
    rw [hreturned]
    refine (hinv.entries id).trans (pending_congr fun other => ?_).symm
    by_cases heq : other = call
    · simp [PendingOf, heq, hmessage, hself, hcalls, Sent.messageId]
    · exact pendingOf_frame (congrFun hcalls other) (hothers other heq)

/-! ### Going on -/

/-- The message of a call in `waitForConfirms`. -/
theorem Inv.waiting_message {event : OrderPlacedEvent} {routingKey : String} {channel : ChannelId}
    {awaited : List Call} (hinv : Inv state)
    (hphase : state.calls call = .waiting event routingKey channel awaited) :
    call ∈ awaited ∧ ∃ sent, state.messages call = some sent ∧
      sent.message = messageOf event routingKey ∧ sent.messageId = event.eventId := by
  obtain ⟨hmem, sent, hmessage, hevent⟩ := (hinv.calls call).waiting _ _ _ _ hphase
  refine ⟨hmem, sent, hmessage, hevent, ?_⟩
  rw [Sent.messageId, hevent, messageOf]

/-- A call goes on and ends: what has to be shown of it. -/
theorem Inv.settle (hinv : Inv state) {phase : Phase} (hmessage : state.messages call = some sent)
    (hsettled : phase.isSettled = true) (hconfirm : phase ≠ .threw → sent.confirm = some .ack)
    (hresolved : phase = .resolved ↔ sent.confirm = some .ack ∧ sent.returned = false)
    (hunroutable : ∀ error, phase = .unroutable error ↔ sent.returned = true ∧
      error = ⟨sent.message.content.eventId, sent.message.routingKey⟩)
    (hcalls : after.calls = Function.update state.calls call phase)
    (hmessages : after.messages = state.messages) (hsent : after.sent = state.sent)
    (hentries : ∀ id, id ∈ after.returned ↔ Pending after id) : Inv after where
  calls other := by
    by_cases heq : other = call
    · subst heq
      have hphase : after.calls other = phase := by simp [hcalls]
      constructor <;> simp only [hphase, hmessages, Accepted, Returned, hmessage, Option.some.injEq]
      · intro _ _
        exact hsent ▸ (hinv.calls other).listed sent hmessage
      · rintro (rfl | ⟨event, routingKey, channel, rfl⟩) <;> cases hsettled
      · rintro event routingKey channel awaited rfl
        cases hsettled
      · rintro - hthrew _ rfl
        simp [hconfirm hthrew]
      · simp [hresolved]
      · simp [hunroutable]
    · refine (hinv.calls other).frame ?_ (congrFun hmessages other) fun _ hmem => hsent ▸ hmem
      simp [hcalls, heq]
  entries := hentries

theorem confirmed_eq_true {verdict : Confirm} (hmessage : state.messages call = some sent) :
    confirmed state verdict call = true ↔ sent.confirm = some verdict := by
  simp [confirmed, hmessage]

theorem resume_inv (hinv : Inv state) (hok : Attributable state (.resume call))
    (hstep : resume state call = some after) : Inv after := by
  unfold resume at hstep
  split at hstep
  case h_2 => cases hstep
  rename_i event routingKey channel awaited hphase
  obtain ⟨hmem, sent, hmessage, hevent, hid⟩ := hinv.waiting_message hphase
  split at hstep
  case isFalse => cases hstep
  rename_i hawaited
  have hack : sent.confirm = some .ack :=
    (confirmed_eq_true hmessage).mp (List.all_eq_true.mp hawaited call hmem)
  -- by the condition nobody else is pending under this event
  have halone (other : Call) (hother : PendingOf state event.eventId other) : other = call := by
    by_contra hne
    obtain ⟨huntold, theirs, htheirs, hsame, hreturned⟩ := hother
    have htold := hok sent hmessage other ((hinv.calls other).listed theirs htheirs) hne theirs
      htheirs (hsame.trans hid.symm) hreturned
    simp [huntold] at htold
  have hothers (other : Call) (hne : other ≠ call) (phase : Phase) :
      (state.goto call phase).calls other = state.calls other :=
    State.calls_goto_of_ne state call phase hne
  split at hstep
  case isTrue hentry =>
    cases hstep
    obtain ⟨other, hother⟩ := (hinv.entries event.eventId).mp hentry
    have heq : other = call := halone other hother
    subst heq
    obtain ⟨-, current, hcurrent, -, hreturned⟩ := hother
    have hsame : sent = current := by simpa [hmessage] using hcurrent
    subst hsame
    refine hinv.settle hmessage ?_ ?_ ?_ ?_ rfl rfl rfl ?_
    · simp [Phase.isSettled]
    · simp [hack]
    · simp [hreturned]
    · intro error
      simp [hreturned, hevent, messageOf, eq_comm]
    · intro id
      simp only [List.mem_filter, decide_eq_true_eq, ne_eq, hinv.entries]
      constructor
      · rintro ⟨⟨holder, hholder⟩, hne⟩
        have hdiffers : holder ≠ other := by
          rintro rfl
          obtain ⟨-, theirs, htheirs, rfl, -⟩ := hholder
          rw [hmessage, Option.some.injEq] at htheirs
          exact hne (htheirs ▸ hid)
        exact ⟨holder, (pendingOf_frame (hothers holder hdiffers _) (by rfl)).mpr hholder⟩
      · rintro ⟨holder, hholder⟩
        have hdiffers : holder ≠ other := by
          rintro rfl
          simp [PendingOf, State.goto, Phase.isUnroutable] at hholder
        have hbefore : PendingOf state id holder :=
          (pendingOf_frame (hothers holder hdiffers _) (by rfl)).mp hholder
        refine ⟨⟨holder, hbefore⟩, ?_⟩
        rintro rfl
        exact hdiffers (halone holder hbefore)
  case isFalse hentry =>
    cases hstep
    have hreturned : sent.returned = false := by
      by_contra hreturned
      apply hentry
      refine (hinv.entries event.eventId).mpr ⟨call, ?_, sent, hmessage, hid, ?_⟩
      · simp [hphase, Phase.isUnroutable]
      · exact eq_true_of_ne_false hreturned
    refine hinv.settle hmessage ?_ ?_ ?_ ?_ rfl rfl rfl ?_
    · simp [Phase.isSettled]
    · simp [hack]
    · simp [hack, hreturned]
    · simp [hreturned]
    · intro id
      refine (hinv.entries id).trans (pending_congr fun other => ?_).symm
      by_cases heq : other = call
      · simp [PendingOf, heq, State.goto, Phase.isUnroutable, hphase]
      · exact pendingOf_frame (hothers other heq _) (by rfl)

theorem reject_inv (hinv : Inv state) (hok : Attributable state (.reject call))
    (hstep : reject state call = some after) : Inv after := by
  unfold reject at hstep
  split at hstep
  case h_2 => cases hstep
  rename_i event routingKey channel awaited hphase
  obtain ⟨-, sent, hmessage, -, -⟩ := hinv.waiting_message hphase
  split at hstep
  case isFalse => cases hstep
  cases hstep
  obtain ⟨hreturned, hack⟩ := hok sent hmessage
  refine hinv.settle hmessage ?_ ?_ ?_ ?_ rfl rfl rfl ?_
  · simp [Phase.isSettled]
  · simp
  · simp [hack]
  · simp [hreturned]
  · intro id
    refine (hinv.entries id).trans (pending_congr fun other => ?_).symm
    by_cases heq : other = call
    · simp [PendingOf, heq, State.goto, Phase.isUnroutable, hphase]
    · exact pendingOf_frame (State.calls_goto_of_ne state call _ heq) (by rfl)

theorem inv_step (hinv : Inv state) (hok : Attributable state action)
    (hstep : step state action = some after) : Inv after := by
  cases action with
  | publish call event routingKey => exact publish_inv hinv hstep
  | send call => exact send_inv hinv hstep
  | basicReturn call => exact basicReturn_inv hinv hok hstep
  | basicAck call => exact confirm_inv hinv (fun hthrew => absurd hthrew hok) hstep
  | basicNack call => exact confirm_inv hinv (fun _ => rfl) hstep
  | resume call => exact resume_inv hinv hok hstep
  | reject call => exact reject_inv hinv hok hstep
  | openChannel channel | failChannel channel | closeChannel channel =>
      simp only [step, openChannel, failChannel, closeChannel, Option.ite_none_right_eq_some,
        Option.some.injEq] at hstep
      obtain ⟨-, rfl⟩ := hstep
      exact hinv.channels rfl rfl rfl rfl
  | reset =>
      cases hstep
      exact hinv.channels rfl rfl rfl rfl

/-- In every run that meets the condition, every call reports what became of its own message. -/
theorem truthful_of_reach (hreach : Reach step Attributable State.init state) : Truthful state :=
  (hreach.invariant Inv inv_init fun _ _ _ _ => inv_step).truthful

def sampleEvent (orderId : OrderId) : OrderPlacedEvent :=
  buildOrderPlacedEvent ⟨orderId, "a@shop.test", 100, "UAH", [⟨3, 1⟩]⟩ orderId

/-- Two publishes overlap: both calls go on after the confirms of both messages, of which the second
was returned. The third is sent on the next channel. -/
def overlapTrace : List Action :=
  [.publish 0 (sampleEvent 1) routingKeyOrderPlaced, .publish 1 (sampleEvent 2) "order.lost",
    .openChannel 0, .send 0, .send 1, .basicAck 0, .basicReturn 1, .basicAck 1, .resume 1,
    .closeChannel 0, .publish 2 (sampleEvent 2) routingKeyOrderPlaced, .openChannel 1, .send 2,
    .resume 0,
    .basicAck 2, .resume 2]

theorem truthful_overlap : ∃ state, Reach step Attributable State.init state ∧
    (state.calls 0 = .resolved ∧ (state.calls 1).isUnroutable = true ∧ state.calls 2 = .resolved) ∧
      Truthful state := by
  obtain ⟨state, hreach, hcheck⟩ : ∃ state, Reach step Attributable State.init state ∧
      decide (state.calls 0 = .resolved ∧ (state.calls 1).isUnroutable = true ∧
        state.calls 2 = .resolved) = true :=
    exists_reach_of_runWithin overlapTrace (by decide +kernel)
  exact ⟨state, hreach, of_decide_eq_true hcheck, truthful_of_reach hreach⟩

/-- A pass gave up the first publish and a later pass sends the event again. Both messages are
returned before either call goes on, and their ids are one entry of the set. -/
def sameEventTrace : List Action :=
  [.publish 0 (sampleEvent 1) routingKeyOrderPlaced, .openChannel 0, .send 0,
    .publish 1 (sampleEvent 1) routingKeyOrderPlaced, .send 1,
    .basicReturn 0, .basicAck 0, .basicReturn 1, .basicAck 1, .resume 0, .resume 1]

theorem sameEvent_not_truthful : ¬ ReportsTruthfully := by
  obtain ⟨state, hreach, hcheck⟩ : ∃ state, Reachable step State.init state ∧
      decide (state.calls 1 = .resolved ∧ (state.messages 1).any (·.returned) = true) = true :=
    exists_reach_of_runWithin sameEventTrace (by decide +kernel)
  obtain ⟨hresolved, hreturned⟩ := of_decide_eq_true hcheck
  intro htruthful
  have hcall := (htruthful state hreach 1 (by simp [hresolved, Phase.isSettled])).1
  obtain ⟨sent, hmessage, -, hnot⟩ := hcall.mp hresolved
  simp [hmessage, hnot] at hreturned

end Marketplace.EventPublisher
