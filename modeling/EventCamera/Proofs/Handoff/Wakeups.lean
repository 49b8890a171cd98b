import EventCamera.Shared
import Mathlib
/-!
# No wake-up is missed

A producer that pushes, a consumer that pops and a console that clears the queue and wakes everybody, in atomic
steps: each read of a control flag, each look at the queue, falling asleep, each notification. The queue is only
looked at under its lock. The control state is written without it, so a flag may change and a notification may
be sent between any two steps, also between the look that finds a reason to wait and the sleep.

`asleep_only_while_waiting`: once everything is announced, whoever sleeps has a reason to. A party keeps the lock
from its look until it sleeps, so what it saw still holds then, or a write has come since that is still to be
announced (`Alert`); and whatever takes the reason away owes a notification until it has sent it
(`ProducerDue`, `ConsumerDue`).

`pushes_uninterrupted`, `pops_uninterrupted`: without interference the steps of a call are one attempt at the
shared queue.
-/

namespace EventCamera

/-! ## The parties -/

/-- What makes a session accepted, in the order in which it is read. -/
inductive Acceptance where
  | running
  | acquisition
  | session
  deriving DecidableEq, Repr

namespace Acceptance

def holds (c : Control) (session : SessionId) : Acceptance → Bool
  | running => c.running
  | acquisition => c.acquisition
  | Acceptance.session => c.session == session

def next? : Acceptance → Option Acceptance
  | running => some acquisition
  | acquisition => some session
  | session => none

/-- All that is read before this. -/
def Before (c : Control) : Acceptance → Prop
  | running => True
  | acquisition => c.running = true
  | session => c.running = true ∧ c.acquisition = true

end Acceptance

/-- Where a push stands. -/
inductive PushPhase where
  | idle
  /-- It waits for the lock. -/
  | lock (b : Batch)
  /-- It reads whether its session is accepted, as it may have to wait. -/
  | look (b : Batch) (next : Acceptance)
  /-- It looks for a free place. -/
  | room (b : Batch)
  /-- There was none. -/
  | doze (b : Batch)
  | asleep (b : Batch)
  /-- It does not wait any more, and reads again whether its session is accepted. -/
  | check (b : Batch) (next : Acceptance)
  | append (b : Batch)
  /-- Its batch stands in the queue, and the consumer is still to be notified. -/
  | announce
  deriving DecidableEq, Repr

/-- Where a pop stands. -/
inductive PopPhase where
  | idle
  | lock
  /-- It reads whether the program runs, as it may have to wait. -/
  | look
  /-- It looks for a batch. -/
  | stock
  /-- There was none. -/
  | doze
  | asleep
  /-- It does not wait any more, and reads again whether the program runs. -/
  | check
  | take
  /-- It has its batch, and the producer is still to be notified. -/
  | announce (batch : Option Batch)
  deriving DecidableEq, Repr

/-- Where a call of the console stands. -/
inductive WakePhase where
  | idle
  | clear
  /-- It takes the lock once, so that nobody is between a look and the sleep. -/
  | wake
  | notifyConsumer
  | notifyProducer
  deriving DecidableEq, Repr

/-- Whether the push has the lock. -/
def PushPhase.locked : PushPhase → Bool
  | look .. | room _ | doze _ | check .. | append _ => true
  | _ => false

def PopPhase.locked : PopPhase → Bool
  | look | stock | doze | check | take => true
  | _ => false

/-- Whether the push has read that the program runs and may sleep on it. -/
def PushPhase.unaware : PushPhase → Bool
  | look _ .acquisition | look _ .session | room _ | doze _ | asleep _ => true
  | _ => false

def PopPhase.unaware : PopPhase → Bool
  | stock | doze | asleep => true
  | _ => false

/-- A notification arrives. A sleeper has to get the lock and look again. -/
def PushPhase.woken : PushPhase → PushPhase
  | asleep b => lock b
  | phase => phase

def PopPhase.woken : PopPhase → PopPhase
  | asleep => lock
  | phase => phase

/-- Whether the write can end the wait of a sleeper, so that it has to be announced. -/
def Control.Write.endsWaits : Control.Write → Bool
  | .shutdown | .acquisition false | .beginSession => true
  | _ => false

/-- The parties at the queue. -/
structure Handover where
  shared : Shared
  producer : PushPhase
  consumer : PopPhase
  console : WakePhase
  /-- Whether a write that ends waits was made and not announced since. -/
  unannounced : Bool

inductive HandoverMove where
  /-- A party begins a call if it has none. -/
  | push (b : Batch)
  | pop
  | clear
  | wakeAll
  /-- A party does the next step of its call. -/
  | producer
  | consumer
  | console
  | write (w : Control.Write)
  /-- A sleeper wakes up for no reason. -/
  | stirProducer
  | stirConsumer
  deriving DecidableEq, Repr

namespace Handover

/-- An empty queue at which nobody is. The rest of the shared state is as it may be. -/
def start (capacity : Nat) (s : Shared) : Handover := ⟨{ s with queue := .new capacity }, .idle, .idle, .idle, false⟩

def lockFree (h : Handover) : Bool := !h.producer.locked && !h.consumer.locked

def stepProducer (h : Handover) : Handover :=
  match h.producer with
  | .idle | .asleep _ => h
  | .lock b => if h.lockFree then { h with producer := .look b .running } else h
  | .look b next =>
    if next.holds h.shared.control b.session then { h with producer := next.next?.elim (.room b) (.look b) }
    else { h with producer := .check b .running }
  | .room b =>
    if h.shared.queue.capacity ≤ h.shared.queue.size then { h with producer := .doze b }
    else { h with producer := .check b .running }
  | .doze b => { h with producer := .asleep b }
  | .check b next =>
    if next.holds h.shared.control b.session then { h with producer := next.next?.elim (.append b) (.check b) }
    else { h with shared := h.shared.count (.addDropped 1), producer := .idle }
  | .append b =>
    { h with
      shared := { h.shared with queue.batches := h.shared.queue.batches ++ [b] }.count .addEnqueued
      producer := .announce }
  | .announce => { h with producer := .idle, consumer := h.consumer.woken }

def stepConsumer (h : Handover) : Handover :=
  match h.consumer with
  | .idle | .asleep => h
  | .lock => if h.lockFree then { h with consumer := .look } else h
  | .look => { h with consumer := if h.shared.control.running then .stock else .check }
  | .stock => { h with consumer := if h.shared.queue.batches.isEmpty then .doze else .check }
  | .doze => { h with consumer := .asleep }
  | .check => { h with consumer := if h.shared.control.running then .take else .idle }
  | .take =>
    { h with
      shared := { h.shared with queue.batches := h.shared.queue.batches.tail }
      consumer := .announce h.shared.queue.batches.head? }
  | .announce _ => { h with producer := h.producer.woken, consumer := .idle }

def stepConsole (h : Handover) : Handover :=
  match h.console with
  | .idle => h
  | .clear => if h.lockFree then { h with shared := h.shared.clearQueue.2, console := .wake } else h
  | .wake => if h.lockFree then { h with console := .notifyConsumer, unannounced := false } else h
  | .notifyConsumer => { h with consumer := h.consumer.woken, console := .notifyProducer }
  | .notifyProducer => { h with producer := h.producer.woken, console := .idle }

def act (h : Handover) : HandoverMove → Handover
  | .push b => if h.producer = .idle then { h with producer := .lock b } else h
  | .pop => if h.consumer = .idle then { h with consumer := .lock } else h
  | .clear => if h.console = .idle then { h with console := .clear } else h
  | .wakeAll => if h.console = .idle then { h with console := .wake } else h
  | .producer => h.stepProducer
  | .consumer => h.stepConsumer
  | .console => h.stepConsole
  | .write w => { h with shared := h.shared.write [w], unannounced := h.unannounced || w.endsWaits }
  | .stirProducer => { h with producer := h.producer.woken }
  | .stirConsumer => { h with consumer := h.consumer.woken }

def run (h : Handover) (moves : List HandoverMove) : Handover := moves.foldl act h

/-! ## Calls without interference -/

variable {h h' : Handover}

/-- Some number of steps of the producer. -/
abbrev Pushes : Handover → Handover → Prop := Relation.ReflTransGen fun h h' => h.stepProducer = h'

abbrev Pops : Handover → Handover → Prop := Relation.ReflTransGen fun h h' => h.stepConsumer = h'

/-- Reading whether a session is accepted, flag by flag, where a refusal leads to `refused`. -/
theorem pushes_read {b : Batch} {reading : Acceptance → PushPhase} {accepted : PushPhase} {refused : Handover}
    (hstep : ∀ next, stepProducer { h with producer := reading next } =
      if next.holds h.shared.control b.session then { h with producer := next.next?.elim accepted reading }
      else refused) :
    Pushes { h with producer := reading .running }
      (if h.shared.control.accepts b.session then { h with producer := accepted } else refused) := by
  cases hr : h.shared.control.running with
  | false =>
    rw [Control.accepts, hr]
    exact .single ((hstep .running).trans (if_neg (by simp [Acceptance.holds, hr])))
  | true =>
    refine .head ((hstep .running).trans (if_pos hr)) ?_
    cases ha : h.shared.control.acquisition with
    | false =>
      rw [Control.accepts, hr, ha]
      exact .single ((hstep .acquisition).trans (if_neg (by simp [Acceptance.holds, ha])))
    | true =>
      refine .head ((hstep .acquisition).trans (if_pos ha)) (.single ?_)
      rw [Control.accepts, hr, ha]
      exact hstep .session

/-- A push that has the lock to itself is one attempt at the shared queue. -/
theorem pushes_uninterrupted {b : Batch} (hp : h.producer = .lock b) (hc : h.consumer.locked = false) :
    Pushes h (match h.shared.push? b with
      | none => { h with producer := .asleep b }
      | some (.enqueued, s) => { h with shared := s, producer := .announce }
      | some (.dropped, s) => { h with shared := s, producer := .idle }) := by
  have hlook : Pushes { h with producer := .look b .running }
      (if h.shared.control.accepts b.session then { h with producer := .room b }
        else { h with producer := .check b .running }) := pushes_read fun _ => rfl
  have hcheck : Pushes { h with producer := .check b .running }
      (if h.shared.control.accepts b.session then { h with producer := .append b }
        else { h with shared := h.shared.count (.addDropped 1), producer := .idle }) := pushes_read fun _ => rfl
  have henter : h.stepProducer = { h with producer := .look b .running } := by
    simp [stepProducer, hp, lockFree, PushPhase.locked, hc]
  refine .head henter (hlook.trans ?_)
  rcases h.shared.push?_cases b with ⟨ha, hfull, heq⟩ | ⟨ha, hroom, heq⟩ | ⟨ha, heq⟩
  · -- It finds no place and sleeps.
    rw [heq, ha, if_pos rfl]
    refine .head (b := { h with producer := .doze b }) ?_ (.single rfl)
    exact if_pos hfull
  · -- It finds a place.
    rw [ha, if_pos rfl] at hcheck
    rw [heq, ha, if_pos rfl]
    refine .head (b := { h with producer := .check b .running }) ?_ (hcheck.trans (.single rfl))
    exact if_neg (Nat.not_le.2 hroom)
  · -- Its session is not accepted.
    rw [ha, if_neg Bool.false_ne_true] at hcheck
    rw [heq, ha, if_neg Bool.false_ne_true]
    exact hcheck

/-- A pop that has the lock to itself is one attempt at the shared queue. -/
theorem pops_uninterrupted (hc : h.consumer = .lock) (hp : h.producer.locked = false) :
    Pops h (match h.shared.pop? with
      | none => { h with consumer := .asleep }
      | some (some b, s) => { h with shared := s, consumer := .announce (some b) }
      | some (none, s) => { h with shared := s, consumer := .idle }) := by
  have henter : h.stepConsumer = { h with consumer := .look } := by
    simp [stepConsumer, hc, lockFree, PopPhase.locked, hp]
  refine .head henter ?_
  rcases h.shared.pop?_cases with ⟨hr, hempty, heq⟩ | ⟨b, rest, hr, hb, heq⟩ | ⟨hr, heq⟩
  · -- It finds no batch and sleeps.
    rw [heq]
    refine .head (b := { h with consumer := .stock }) ?_ (.head (b := { h with consumer := .doze }) ?_ (.single rfl))
    · simp [stepConsumer, hr]
    · simp [stepConsumer, hempty]
  · -- It takes the oldest batch.
    rw [heq]
    refine .head (b := { h with consumer := .stock }) ?_ (.head (b := { h with consumer := .check }) ?_
      (.head (b := { h with consumer := .take }) ?_ (.single ?_)))
    · simp [stepConsumer, hr]
    · simp [stepConsumer, hb]
    · simp [stepConsumer, hr]
    · simp [stepConsumer, hb]
  · -- The program has stopped.
    rw [heq]
    refine .head (b := { h with consumer := .check }) ?_ (.single ?_)
    · simp [stepConsumer, hr]
    · simp [stepConsumer, hr]

/-! ## What the parties have seen -/

/-- A notification of the producer is due: somebody made place, or is waking everybody. -/
def ProducerDue (h : Handover) : Prop :=
  (∃ batch, h.consumer = .announce batch) ∨ h.console = .wake ∨ h.console = .notifyConsumer ∨
    h.console = .notifyProducer

/-- A notification of the consumer is due. -/
def ConsumerDue (h : Handover) : Prop :=
  h.producer = .announce ∨ h.console = .wake ∨ h.console = .notifyConsumer

/-- No notification is outstanding, and every write that ends waits was announced. -/
structure Announced (h : Handover) : Prop where
  writes : h.unannounced = false
  producer : h.producer ≠ .announce
  consumer : ∀ batch, h.consumer ≠ .announce batch
  console : h.console = .idle ∨ h.console = .clear

theorem Announced.not_producerDue (ha : h.Announced) : ¬h.ProducerDue := by
  rintro (⟨batch, hc⟩ | hw)
  · exact ha.consumer batch hc
  · rcases ha.console with hi | hi <;> simp [hi] at hw

theorem Announced.not_consumerDue (ha : h.Announced) : ¬h.ConsumerDue := by
  rintro (hp | hw)
  · exact ha.producer hp
  · rcases ha.console with hi | hi <;> simp [hi] at hw

/-- What was read of the control state still holds, or a write came that is to be announced. -/
def Stands (h : Handover) (read : Prop) : Prop := read ∨ h.unannounced = true

/-- A push of the batch has to wait, as far as it can know. -/
def NoPlace (h : Handover) (b : Batch) : Prop :=
  h.Stands (h.shared.control.accepts b.session = true) ∧ h.shared.queue.capacity ≤ h.shared.queue.size

def NoBatch (h : Handover) : Prop := h.Stands (h.shared.control.running = true) ∧ h.shared.queue.batches = []

/-- The push has reasons to be where it is. A sleeper may have lost them if it is about to be notified. -/
def PushSound (h : Handover) : PushPhase → Prop
  | .look _ next => h.Stands (next.Before h.shared.control)
  | .room b => h.Stands (h.shared.control.accepts b.session = true)
  | .doze b => h.NoPlace b
  | .asleep b => h.NoPlace b ∨ h.ProducerDue
  | _ => True

def PopSound (h : Handover) : PopPhase → Prop
  | .stock => h.Stands (h.shared.control.running = true)
  | .doze => h.NoBatch
  | .asleep => h.NoBatch ∨ h.ConsumerDue
  | _ => True

/-- Nobody sleeps without a reason, unless a notification is due. -/
structure Alert (h : Handover) : Prop where
  apart : h.producer.locked = true → h.consumer.locked = false
  producer : h.PushSound h.producer
  consumer : h.PopSound h.consumer

theorem alert_start (capacity : Nat) (s : Shared) : (start capacity s).Alert := ⟨nofun, trivial, trivial⟩

/-- What was read before goes on to stand. -/
structure Sees (h h' : Handover) : Prop where
  holds : ∀ (session : SessionId) (next : Acceptance), next.holds h.shared.control session = true →
    h'.Stands (next.holds h'.shared.control session = true)
  unannounced : h.unannounced = true → h'.unannounced = true

theorem sees_of_eq (hcontrol : h'.shared.control = h.shared.control) (hu : h'.unannounced = h.unannounced) :
    Sees h h' :=
  ⟨fun _ _ hn => .inl (hcontrol ▸ hn), fun h => hu ▸ h⟩

theorem Sees.running (hs : Sees h h') (hr : h.Stands (h.shared.control.running = true)) :
    h'.Stands (h'.shared.control.running = true) := by
  rcases hr with hr | hr
  · exact hs.holds 0 .running hr
  · exact .inr (hs.unannounced hr)

theorem Sees.before (hs : Sees h h') {next : Acceptance} (hb : h.Stands (next.Before h.shared.control)) :
    h'.Stands (next.Before h'.shared.control) := by
  rcases hb with hb | hb
  · cases next with
    | running => exact .inl trivial
    | acquisition => exact hs.holds 0 .running hb
    | session =>
      rcases hs.holds 0 .running hb.1 with hr | hr
      · rcases hs.holds 0 .acquisition hb.2 with ha | ha
        · exact .inl ⟨hr, ha⟩
        · exact .inr ha
      · exact .inr hr
  · exact .inr (hs.unannounced hb)

theorem accepts_iff {c : Control} {session : SessionId} :
    c.accepts session = true ↔ Acceptance.session.Before c ∧ Acceptance.session.holds c session = true := by
  simp [Control.accepts, Acceptance.Before, Acceptance.holds]

theorem Sees.accepts (hs : Sees h h') {session : SessionId}
    (ha : h.Stands (h.shared.control.accepts session = true)) :
    h'.Stands (h'.shared.control.accepts session = true) := by
  rcases ha with ha | ha
  · obtain ⟨hbefore, hsession⟩ := accepts_iff.1 ha
    rcases hs.before (.inl hbefore) with hb | hb
    · rcases hs.holds session .session hsession with hn | hn
      · exact .inl (accepts_iff.2 ⟨hb, hn⟩)
      · exact .inr hn
    · exact .inr hb
  · exact .inr (hs.unannounced ha)

/-- Control writes are made without the lock, and what they may undo is to be announced. -/
theorem sees_write (h : Handover) (w : Control.Write) : Sees h (h.act (.write w)) := by
  refine ⟨fun session next hn => ?_, fun hu => ?_⟩
  · cases hw : w.endsWaits with
    | true => exact .inr (by simp [act, hw])
    | false =>
      refine .inl ?_
      cases w with
      | shutdown => cases hw
      | beginSession => cases hw
      | acquisition on =>
        cases on with
        | false => cases hw
        | true => cases next <;> first | exact hn | rfl
      | _ => cases next <;> exact hn
  · simp [act, hu]

theorem PushSound.woken {phase : PushPhase} (hp : h.PushSound phase) : h.PushSound phase.woken := by
  cases phase with
  | asleep b => trivial
  | _ => exact hp

theorem PopSound.woken {phase : PopPhase} (hc : h.PopSound phase) : h.PopSound phase.woken := by
  cases phase with
  | asleep => trivial
  | _ => exact hc

/-- As long as the queue is as it was, a push has the reasons it had. -/
theorem PushSound.frame {phase : PushPhase} (hp : h.PushSound phase) (hs : Sees h h')
    (hq : h'.shared.queue = h.shared.queue) (hdue : (∃ b, phase = .asleep b) → h.ProducerDue → h'.ProducerDue) :
    h'.PushSound phase := by
  have hplace : ∀ b, h.NoPlace b → h'.NoPlace b := fun b hn => ⟨hs.accepts hn.1, hq ▸ hn.2⟩
  cases phase with
  | look b next => exact hs.before hp
  | room b => exact hs.accepts hp
  | doze b => exact hplace b hp
  | asleep b => exact Or.imp (hplace b) (hdue ⟨b, rfl⟩) hp
  | _ => trivial

theorem PopSound.frame {phase : PopPhase} (hc : h.PopSound phase) (hs : Sees h h')
    (hq : h'.shared.queue = h.shared.queue) (hdue : phase = .asleep → h.ConsumerDue → h'.ConsumerDue) :
    h'.PopSound phase := by
  have hbatch : h.NoBatch → h'.NoBatch := fun hn => ⟨hs.running hn.1, hq ▸ hn.2⟩
  cases phase with
  | stock => exact hs.running hc
  | doze => exact hbatch hc
  | asleep => exact Or.imp hbatch (hdue rfl) hc
  | _ => trivial

/-- Without the lock a push has seen nothing that could be undone, unless it sleeps. -/
theorem pushSound_of_due {phase : PushPhase} (hl : phase.locked = false) (hdue : h.ProducerDue) :
    h.PushSound phase := by
  cases phase with
  | asleep b => exact .inr hdue
  | idle => trivial
  | lock b => trivial
  | announce => trivial
  | _ => cases hl

theorem popSound_of_due {phase : PopPhase} (hl : phase.locked = false) (hdue : h.ConsumerDue) :
    h.PopSound phase := by
  cases phase with
  | asleep => exact .inr hdue
  | idle => trivial
  | lock => trivial
  | announce batch => trivial
  | _ => cases hl

@[simp] theorem locked_woken_push (phase : PushPhase) : phase.woken.locked = phase.locked := by cases phase <;> rfl

@[simp] theorem locked_woken_pop (phase : PopPhase) : phase.woken.locked = phase.locked := by cases phase <;> rfl

theorem woken_push_ne_asleep (phase : PushPhase) : ¬∃ b, phase.woken = .asleep b := by
  cases phase <;> simp [PushPhase.woken]

theorem woken_pop_ne_asleep (phase : PopPhase) : phase.woken ≠ .asleep := by
  cases phase <;> simp [PopPhase.woken]

/-! ## Every step -/

theorem lockFree_iff : h.lockFree = true ↔ h.producer.locked = false ∧ h.consumer.locked = false := by
  simp [lockFree]

/-- The producer goes on to a phase for which it has the reasons, and owes nobody a notification. -/
theorem Alert.producerTo (ha : h.Alert) {s : Shared} {phase : PushPhase} (hcontrol : s.control = h.shared.control)
    (hqueue : s.queue = h.shared.queue) (howes : h.producer ≠ .announce)
    (hlocked : phase.locked = true → h.consumer.locked = false) (hsound : h.PushSound phase) :
    Alert { h with shared := s, producer := phase } := by
  refine ⟨hlocked, ?_, ?_⟩
  · exact hsound.frame (sees_of_eq hcontrol rfl) hqueue fun _ hdue => hdue
  · refine ha.consumer.frame (sees_of_eq hcontrol rfl) hqueue fun _ hdue => ?_
    exact .inr (hdue.resolve_left howes)

theorem Alert.consumerTo (ha : h.Alert) {phase : PopPhase} (howes : ∀ batch, h.consumer ≠ .announce batch)
    (hlocked : phase.locked = true → h.producer.locked = false) (hsound : h.PopSound phase) :
    Alert { h with consumer := phase } := by
  refine ⟨?_, ?_, ?_⟩
  · intro hp
    cases hl : phase.locked with
    | false => rfl
    | true =>
      rw [hlocked hl] at hp
      cases hp
  · refine ha.producer.frame (sees_of_eq rfl rfl) rfl fun _ hdue => ?_
    exact .inr (hdue.resolve_left fun ⟨batch, hb⟩ => howes batch hb)
  · exact hsound.frame (sees_of_eq rfl rfl) rfl fun _ hdue => hdue

theorem Alert.stepProducer (ha : h.Alert) : h.stepProducer.Alert := by
  have hlocked : h.producer.locked = true → h.consumer.locked = false := ha.apart
  have hsound := ha.producer
  unfold Handover.stepProducer
  cases hp : h.producer with
  | idle => exact ha
  | asleep b => exact ha
  | lock b =>
    dsimp only
    split
    · next hfree =>
      refine ha.producerTo rfl rfl (by simp [hp]) (fun _ => (lockFree_iff.1 hfree).2) ?_
      exact .inl trivial
    · exact ha
  | look b next =>
    rw [hp] at hlocked hsound
    dsimp only
    split
    · next hn =>
      refine ha.producerTo rfl rfl (by simp [hp]) (fun _ => hlocked rfl) ?_
      cases next with
      | running => exact .inl hn
      | acquisition => exact Or.imp (⟨·, hn⟩) id hsound
      | session => exact Or.imp (fun hb => accepts_iff.2 ⟨hb, hn⟩) id hsound
    · exact ha.producerTo rfl rfl (by simp [hp]) (fun _ => hlocked rfl) trivial
  | room b =>
    rw [hp] at hlocked hsound
    dsimp only
    split
    · next hfull => exact ha.producerTo rfl rfl (by simp [hp]) (fun _ => hlocked rfl) ⟨hsound, hfull⟩
    · exact ha.producerTo rfl rfl (by simp [hp]) (fun _ => hlocked rfl) trivial
  | doze b =>
    rw [hp] at hsound
    exact ha.producerTo rfl rfl (by simp [hp]) nofun (.inl hsound)
  | check b next =>
    rw [hp] at hlocked
    dsimp only
    split
    · refine ha.producerTo rfl rfl (by simp [hp]) (fun _ => hlocked rfl) ?_
      cases next <;> trivial
    · exact ha.producerTo rfl rfl (by simp [hp]) nofun trivial
  | append b =>
    rw [hp] at hlocked
    refine ⟨nofun, trivial, ?_⟩
    exact popSound_of_due (hlocked rfl) (.inl rfl)
  | announce =>
    refine ⟨nofun, trivial, ?_⟩
    exact ha.consumer.woken.frame (sees_of_eq rfl rfl) rfl fun hw => absurd hw (woken_pop_ne_asleep _)

theorem Alert.stepConsumer (ha : h.Alert) : h.stepConsumer.Alert := by
  have hlocked : h.consumer.locked = true → h.producer.locked = false := by
    intro hc
    cases hl : h.producer.locked with
    | false => rfl
    | true =>
      rw [ha.apart hl] at hc
      cases hc
  have hsound := ha.consumer
  unfold Handover.stepConsumer
  cases hc : h.consumer with
  | idle => exact ha
  | asleep => exact ha
  | lock =>
    dsimp only
    split
    · next hfree => exact ha.consumerTo (by simp [hc]) (fun _ => (lockFree_iff.1 hfree).1) trivial
    · exact ha
  | look =>
    rw [hc] at hlocked
    refine ha.consumerTo (by simp [hc]) (fun _ => hlocked rfl) ?_
    split
    · next hr => exact .inl hr
    · trivial
  | stock =>
    rw [hc] at hlocked hsound
    refine ha.consumerTo (by simp [hc]) (fun _ => hlocked rfl) ?_
    split
    · next hempty => exact ⟨hsound, List.isEmpty_iff.1 hempty⟩
    · trivial
  | doze =>
    rw [hc] at hsound
    exact ha.consumerTo (by simp [hc]) nofun (.inl hsound)
  | check =>
    rw [hc] at hlocked
    refine ha.consumerTo (by simp [hc]) (fun _ => hlocked rfl) ?_
    split <;> trivial
  | take =>
    rw [hc] at hlocked
    refine ⟨fun _ => rfl, ?_, trivial⟩
    exact pushSound_of_due (hlocked rfl) (.inl ⟨_, rfl⟩)
  | announce batch =>
    refine ⟨fun _ => rfl, ?_, trivial⟩
    exact ha.producer.woken.frame (sees_of_eq rfl rfl) rfl fun hw => absurd hw (woken_push_ne_asleep _)

theorem Alert.stepConsole (ha : h.Alert) : h.stepConsole.Alert := by
  unfold Handover.stepConsole
  cases hw : h.console with
  | idle => exact ha
  | clear =>
    dsimp only
    split
    · next hfree =>
      obtain ⟨hp, hc⟩ := lockFree_iff.1 hfree
      refine ⟨ha.apart, pushSound_of_due hp (.inr (.inl rfl)), popSound_of_due hc (.inr (.inl rfl))⟩
    · exact ha
  | wake =>
    -- The requests to announce a write are served from here on.
    dsimp only
    split
    · next hfree =>
      obtain ⟨hp, hc⟩ := lockFree_iff.1 hfree
      refine ⟨ha.apart, pushSound_of_due hp (.inr (.inr (.inl rfl))), popSound_of_due hc (.inr (.inr rfl))⟩
    · exact ha
  | notifyConsumer =>
    refine ⟨?_, ?_, ?_⟩
    · simpa using ha.apart
    · refine ha.producer.frame (sees_of_eq rfl rfl) rfl fun _ _ => ?_
      exact .inr (.inr (.inr rfl))
    · exact ha.consumer.woken.frame (sees_of_eq rfl rfl) rfl fun hw => absurd hw (woken_pop_ne_asleep _)
  | notifyProducer =>
    refine ⟨?_, ?_, ?_⟩
    · simpa using ha.apart
    · exact ha.producer.woken.frame (sees_of_eq rfl rfl) rfl fun hw => absurd hw (woken_push_ne_asleep _)
    · refine ha.consumer.frame (sees_of_eq rfl rfl) rfl fun _ hdue => ?_
      rcases hdue with hp | hw' | hw'
      · exact .inl (by simp [hp, PushPhase.woken])
      · rw [hw] at hw'
        cases hw'
      · rw [hw] at hw'
        cases hw'

/-- Every move keeps it. -/
theorem Alert.act (ha : h.Alert) (m : HandoverMove) : (h.act m).Alert := by
  cases m with
  | push b =>
    unfold Handover.act
    dsimp only
    split
    · next hp => exact ha.producerTo rfl rfl (by simp [hp]) nofun trivial
    · exact ha
  | pop =>
    unfold Handover.act
    dsimp only
    split
    · next hc => exact ha.consumerTo (by simp [hc]) nofun trivial
    · exact ha
  | clear =>
    unfold Handover.act
    dsimp only
    split
    · next hw =>
      refine ⟨ha.apart, ?_, ?_⟩
      · refine ha.producer.frame (sees_of_eq rfl rfl) rfl fun _ hdue => ?_
        simpa [ProducerDue, hw] using hdue
      · refine ha.consumer.frame (sees_of_eq rfl rfl) rfl fun _ hdue => ?_
        simpa [ConsumerDue, hw] using hdue
    · exact ha
  | wakeAll =>
    unfold Handover.act
    dsimp only
    split
    · refine ⟨ha.apart, ?_, ?_⟩
      · exact ha.producer.frame (sees_of_eq rfl rfl) rfl fun _ _ => .inr (.inl rfl)
      · exact ha.consumer.frame (sees_of_eq rfl rfl) rfl fun _ _ => .inr (.inl rfl)
    · exact ha
  | producer => exact ha.stepProducer
  | consumer => exact ha.stepConsumer
  | console => exact ha.stepConsole
  | write w =>
    refine ⟨ha.apart, ?_, ?_⟩
    · exact ha.producer.frame (sees_write h w) rfl fun _ hdue => hdue
    · exact ha.consumer.frame (sees_write h w) rfl fun _ hdue => hdue
  | stirProducer =>
    refine ⟨?_, ?_, ?_⟩
    · simpa [Handover.act] using ha.apart
    · exact ha.producer.woken.frame (sees_of_eq rfl rfl) rfl fun hw => absurd hw (woken_push_ne_asleep _)
    · refine ha.consumer.frame (sees_of_eq rfl rfl) rfl fun _ hdue => ?_
      exact Or.imp (fun hp => by simp [Handover.act, hp, PushPhase.woken]) id hdue
  | stirConsumer =>
    refine ⟨?_, ?_, ?_⟩
    · simpa [Handover.act] using ha.apart
    · refine ha.producer.frame (sees_of_eq rfl rfl) rfl fun _ hdue => ?_
      exact Or.imp (fun ⟨batch, hc⟩ => ⟨batch, by simp [Handover.act, hc, PopPhase.woken]⟩) id hdue
    · exact ha.consumer.woken.frame (sees_of_eq rfl rfl) rfl fun hw => absurd hw (woken_pop_ne_asleep _)

theorem Alert.run (ha : h.Alert) (moves : List HandoverMove) : (h.run moves).Alert := by
  induction moves generalizing h with
  | nil => exact ha
  | cons m rest ih => exact ih (ha.act m)

/-! ## After shutdown -/

/-- The program has stopped, and nobody sleeps or has still to learn of it. -/
structure Settled (h : Handover) : Prop where
  stopped : h.shared.control.running = false
  producer : h.producer.unaware = false
  consumer : h.consumer.unaware = false

theorem Alert.settled (ha : h.Alert) (hstopped : h.shared.control.running = false) (hann : h.Announced) :
    h.Settled := by
  have hstands : ∀ {read : Prop}, (read → h.shared.control.running = true) → ¬h.Stands read := by
    intro read hread hs
    rcases hs with hr | hu
    · rw [hread hr] at hstopped
      cases hstopped
    · rw [hann.writes] at hu
      cases hu
  have haccepts : ∀ session, ¬h.Stands (h.shared.control.accepts session = true) :=
    fun session => hstands fun hacc => (accepts_iff.1 hacc).1.1
  refine ⟨hstopped, ?_, ?_⟩
  · have hsound := ha.producer
    cases hp : h.producer with
    | look b next =>
      rw [hp] at hsound
      cases next with
      | running => rfl
      | acquisition => exact absurd hsound (hstands id)
      | session => exact absurd hsound (hstands And.left)
    | room b =>
      rw [hp] at hsound
      exact absurd hsound (haccepts _)
    | doze b =>
      rw [hp] at hsound
      exact absurd hsound.1 (haccepts _)
    | asleep b =>
      rw [hp] at hsound
      rcases hsound with hn | hdue
      · exact absurd hn.1 (haccepts _)
      · exact absurd hdue hann.not_producerDue
    | _ => rfl
  · have hsound := ha.consumer
    cases hc : h.consumer with
    | stock =>
      rw [hc] at hsound
      exact absurd hsound (hstands id)
    | doze =>
      rw [hc] at hsound
      exact absurd hsound.1 (hstands id)
    | asleep =>
      rw [hc] at hsound
      rcases hsound with hn | hdue
      · exact absurd hn.1 (hstands id)
      · exact absurd hdue hann.not_consumerDue
    | _ => rfl

theorem unaware_woken_push {phase : PushPhase} (hp : phase.unaware = false) : phase.woken.unaware = false := by
  cases phase <;> first | rfl | exact hp

theorem unaware_woken_pop {phase : PopPhase} (hc : phase.unaware = false) : phase.woken.unaware = false := by
  cases phase <;> first | rfl | exact hc

theorem Settled.stepProducer (hs : h.Settled) : h.stepProducer.Settled := by
  have hunaware := hs.producer
  unfold Handover.stepProducer
  cases hp : h.producer with
  | idle => exact hs
  | asleep b => exact hs
  | lock b =>
    dsimp only
    split
    · exact ⟨hs.stopped, rfl, hs.consumer⟩
    · exact hs
  | look b next =>
    -- It can only be about to read that the program runs, and finds that it does not.
    rw [hp] at hunaware
    cases next with
    | running =>
      have hread : Acceptance.running.holds h.shared.control b.session = false := hs.stopped
      simp only [hread]
      exact ⟨hs.stopped, rfl, hs.consumer⟩
    | acquisition => cases hunaware
    | session => cases hunaware
  | room b =>
    rw [hp] at hunaware
    cases hunaware
  | doze b =>
    rw [hp] at hunaware
    cases hunaware
  | check b next =>
    dsimp only
    split
    · cases next <;> exact ⟨hs.stopped, rfl, hs.consumer⟩
    · exact ⟨hs.stopped, rfl, hs.consumer⟩
  | append b => exact ⟨hs.stopped, rfl, hs.consumer⟩
  | announce => exact ⟨hs.stopped, rfl, unaware_woken_pop hs.consumer⟩

theorem Settled.stepConsumer (hs : h.Settled) : h.stepConsumer.Settled := by
  have hunaware := hs.consumer
  unfold Handover.stepConsumer
  cases hc : h.consumer with
  | idle => exact hs
  | asleep => exact hs
  | lock =>
    dsimp only
    split
    · exact ⟨hs.stopped, hs.producer, rfl⟩
    · exact hs
  | look =>
    simp only [hs.stopped]
    exact ⟨hs.stopped, hs.producer, rfl⟩
  | check =>
    simp only [hs.stopped]
    exact ⟨hs.stopped, hs.producer, rfl⟩
  | take => exact ⟨hs.stopped, hs.producer, rfl⟩
  | announce batch => exact ⟨hs.stopped, unaware_woken_push hs.producer, rfl⟩
  | _ =>
    rw [hc] at hunaware
    cases hunaware

theorem Settled.stepConsole (hs : h.Settled) : h.stepConsole.Settled := by
  unfold Handover.stepConsole
  cases h.console with
  | idle => exact hs
  | clear =>
    dsimp only
    split
    · exact ⟨hs.stopped, hs.producer, hs.consumer⟩
    · exact hs
  | wake =>
    dsimp only
    split
    · exact ⟨hs.stopped, hs.producer, hs.consumer⟩
    · exact hs
  | notifyConsumer => exact ⟨hs.stopped, hs.producer, unaware_woken_pop hs.consumer⟩
  | notifyProducer => exact ⟨hs.stopped, unaware_woken_push hs.producer, hs.consumer⟩

theorem Settled.act (hs : h.Settled) (m : HandoverMove) : (h.act m).Settled := by
  cases m with
  | push b =>
    unfold Handover.act
    dsimp only
    split
    · exact ⟨hs.stopped, rfl, hs.consumer⟩
    · exact hs
  | pop =>
    unfold Handover.act
    dsimp only
    split
    · exact ⟨hs.stopped, hs.producer, rfl⟩
    · exact hs
  | clear =>
    unfold Handover.act
    dsimp only
    split
    · exact ⟨hs.stopped, hs.producer, hs.consumer⟩
    · exact hs
  | wakeAll =>
    unfold Handover.act
    dsimp only
    split
    · exact ⟨hs.stopped, hs.producer, hs.consumer⟩
    · exact hs
  | producer => exact hs.stepProducer
  | consumer => exact hs.stepConsumer
  | console => exact hs.stepConsole
  | write w => exact ⟨Control.running_write_of_not_running w hs.stopped, hs.producer, hs.consumer⟩
  | stirProducer => exact ⟨hs.stopped, unaware_woken_push hs.producer, hs.consumer⟩
  | stirConsumer => exact ⟨hs.stopped, hs.producer, unaware_woken_pop hs.consumer⟩

theorem Settled.run (hs : h.Settled) (moves : List HandoverMove) : (h.run moves).Settled := by
  induction moves generalizing h with
  | nil => exact hs
  | cons m rest ih => exact ih (hs.act m)

/-! ## Every run -/

theorem capacity_act (h : Handover) (m : HandoverMove) :
    (h.act m).shared.queue.capacity = h.shared.queue.capacity := by
  cases m with
  | producer =>
    show h.stepProducer.shared.queue.capacity = _
    unfold stepProducer
    split <;> first | rfl | (split <;> rfl)
  | consumer =>
    show h.stepConsumer.shared.queue.capacity = _
    unfold stepConsumer
    split <;> first | rfl | (split <;> rfl)
  | console =>
    show h.stepConsole.shared.queue.capacity = _
    unfold stepConsole
    split <;> first | rfl | (split <;> rfl)
  | write w => rfl
  | stirProducer => rfl
  | stirConsumer => rfl
  | _ =>
    unfold act
    dsimp only
    split <;> rfl

theorem capacity_run (h : Handover) (moves : List HandoverMove) :
    (h.run moves).shared.queue.capacity = h.shared.queue.capacity := by
  induction moves generalizing h with
  | nil => rfl
  | cons m rest ih => exact (ih (h.act m)).trans (capacity_act h m)

/-- Whatever the parties do at a queue with any number of places: once no notification is outstanding and all writes are
announced, a push sleeps only if its session is accepted and the queue is full, and a pop only if the program runs and
the queue is empty. So they never sleep both, and if the program has stopped neither sleeps, then or ever after. -/
theorem asleep_only_while_waiting (capacity : Nat) (s : Shared) (moves : List HandoverMove)
    (hann : ((start capacity s).run moves).Announced) :
    let t := (start capacity s).run moves
    (∀ b, t.producer = .asleep b → HandoffQueue.PushWaits t.shared.control b.session t.shared.queue) ∧
    (t.consumer = .asleep → HandoffQueue.PopWaits t.shared.control t.shared.queue) ∧
    ¬((∃ b, t.producer = .asleep b) ∧ t.consumer = .asleep) ∧
    (t.shared.control.running = false → ∀ later,
      (∀ b, (t.run later).producer ≠ .asleep b) ∧ (t.run later).consumer ≠ .asleep) := by
  intro t
  have ha : t.Alert := (alert_start capacity s).run moves
  have hwrites : t.unannounced = false := hann.writes
  have hstands : ∀ {read : Prop}, t.Stands read → read := fun hs => hs.resolve_right (by simp [hwrites])
  have hpush : ∀ b, t.producer = .asleep b → HandoffQueue.PushWaits t.shared.control b.session t.shared.queue := by
    intro b hb
    have hsound := ha.producer
    rw [hb] at hsound
    obtain ⟨hacc, hfull⟩ := hsound.resolve_right hann.not_producerDue
    exact ⟨hstands hacc, hfull⟩
  have hpop : t.consumer = .asleep → HandoffQueue.PopWaits t.shared.control t.shared.queue := by
    intro hc
    have hsound := ha.consumer
    rw [hc] at hsound
    obtain ⟨hrunning, hempty⟩ := hsound.resolve_right hann.not_consumerDue
    exact ⟨hstands hrunning, hempty⟩
  refine ⟨hpush, hpop, ?_, ?_⟩
  · rintro ⟨⟨b, hb⟩, hc⟩
    have hfull := (hpush b hb).2
    have hempty := (hpop hc).2
    have hplaces : t.shared.queue.capacity = max capacity 1 := capacity_run _ moves
    rw [HandoffQueue.size, hempty, hplaces, List.length_nil] at hfull
    omega
  · intro hstopped later
    have hs : (t.run later).Settled := (ha.settled hstopped hann).run later
    refine ⟨fun b hb => ?_, fun hc => ?_⟩
    · have hp := hs.producer
      rw [hb] at hp
      cases hp
    · have hp := hs.consumer
      rw [hc] at hp
      cases hp

/-- At a queue with one place a second batch is pushed while the first is still there. -/
def twoPushes : Handover :=
  (start 1 (.initial 1)).run (.write (.acquisition true) :: .push ⟨0, []⟩ :: List.replicate 10 .producer ++
    .push ⟨0, []⟩ :: List.replicate 6 .producer)

theorem asleep_only_while_waiting_full :
    twoPushes.Announced ∧ twoPushes.producer = .asleep ⟨0, []⟩ ∧
      HandoffQueue.PushWaits twoPushes.shared.control 0 twoPushes.shared.queue := by
  have hasleep : twoPushes.producer = .asleep ⟨0, []⟩ := by decide
  have hconsumer : twoPushes.consumer = .idle := by decide
  have hconsole : twoPushes.console = .idle := by decide
  have hann : twoPushes.Announced := by
    refine ⟨by decide, ?_, ?_, .inl hconsole⟩
    · rw [hasleep]
      nofun
    · rw [hconsumer]
      nofun
  obtain ⟨hpush, -⟩ := asleep_only_while_waiting 1 (.initial 1) _ hann
  exact ⟨hann, hasleep, hpush ⟨0, []⟩ hasleep⟩

end Handover

end EventCamera
