import CounterWatch.Listener
import CounterWatch.Proofs.Accounting
import CounterWatch.Proofs.Schedule

/-!
# Only rates matter

Of a full record a monitor uses the three rates and, for the alert alone, the timestamp; of a short
datagram it uses nothing. So two histories that agree on the rates lead to the same state and to the
same alerts but for their timestamps, as long as the clock does not tell them apart.

* `Event.Alike` are events that agree on the rates, and `History.full` leaves the short datagrams
  of a history out. What is received of a datagram decodes to the same (`Sample.decode_receive`).
* `Detector.Agree` and `Monitor.Agree` relate states that differ in nothing but the moment at which
  the models in place were trained. Alike events keep the relation and give the same alerts
  (`Monitor.Agree.step`), and so do histories (`Monitor.Agree.replay`).
* Short datagrams can be left out (`Monitor.full_unnoticed`), and so can what is cut off a datagram
  as it comes in (`Monitor.received_unnoticed`).
-/

namespace CounterWatch

/-! ## What is read of a datagram -/

namespace Event

/-- Whether an event is a datagram too short for a record. -/
def isShort : Event → Bool
  | .datagram bytes => bytes.length < Sample.wireSize
  | .tick => false

/-- Two idle spells, or two datagrams that agree on the bytes of the rates. -/
def Alike : Event → Event → Prop
  | .tick, .tick => True
  | .datagram bytes, .datagram bytes' => (bytes.drop 56).take 12 = (bytes'.drop 56).take 12
  | _, _ => False

/-- The number in the first eight bytes of a datagram, lowest byte first. -/
def stamp : Event → Nat
  | .datagram bytes => ofLittleEndian (bytes.take 8)
  | .tick => 0

/-- What is received of an event. -/
def received : Event → Event
  | .datagram bytes => .datagram (Listener.receive bytes)
  | .tick => .tick

end Event

namespace Sample

/-- The rates lie in the last twelve bytes of a record. -/
theorem field_rate (bytes : List UInt8) {i : Nat} (lt : i < 3) :
    field bytes (56 + 4 * i) 4 = field ((bytes.drop 56).take 12) (4 * i) 4 := by
  unfold field
  rw [List.drop_take, List.drop_drop, List.take_take, Nat.min_eq_left (by omega)]

/-- No field of a record lies behind what is kept of a datagram that is cut. -/
theorem field_take {n offset width : Nat} (bytes : List UInt8) (le : offset + width ≤ n) :
    field (bytes.take n) offset width = field bytes offset width := by
  unfold field
  rw [List.drop_take, List.take_take, Nat.min_eq_left (by omega)]

/-- A cut behind the record changes nothing. -/
theorem decode_receive (bytes : List UInt8) : decode (Listener.receive bytes) = decode bytes := by
  have size : wireSize = 68 := rfl
  have room : Listener.bufferSize = 4096 := rfl
  by_cases short : bytes.length < wireSize
  · rw [Listener.receive, List.take_of_length_le (by omega)]
  · have long : ¬(Listener.receive bytes).length < wireSize := by
      rw [Listener.receive, List.length_take]
      omega
    have same (offset width : Nat) (le : offset + width ≤ 4096) :
        field (Listener.receive bytes) offset width = field bytes offset width :=
      field_take bytes le
    simp (disch := omega) only [decode, short, long, if_false, same]

/-- The rates that the last twelve bytes of a record stand for. -/
def ratesOf (bytes : List UInt8) : Rates :=
  let rate (i : Nat) : Single := ⟨UInt32.ofNat (field bytes (4 * i) 4)⟩
  { cacheMiss := rate 0, branchMiss := rate 1, ipc := rate 2 }

theorem rates_of_decode {bytes : List UInt8} {s : Sample} (h : decode bytes = .ok s) :
    s.rates = ratesOf ((bytes.drop 56).take 12) := by
  unfold decode at h
  split_ifs at h with short
  obtain rfl := Except.ok.inj h
  simp (disch := omega) only [field_rate, ratesOf]

end Sample

namespace Event

variable {x y : Event}

/-- An event with a sample is a datagram that is decoded. -/
theorem decode_of_sample? {s : Sample} (h : x.sample? = some s) :
    ∃ bytes, x = .datagram bytes ∧ Sample.decode bytes = .ok s := by
  cases x with
  | tick => cases h
  | datagram bytes =>
    refine ⟨bytes, rfl, ?_⟩
    rw [sample?] at h
    cases decoded : Sample.decode bytes with
    | error e =>
      rw [decoded] at h
      cases h
    | ok t =>
      rw [decoded] at h
      rw [Option.some.inj h]

/-- A record carries the number in its first bytes as its timestamp. -/
theorem timestamp_eq_stamp {s : Sample} (h : x.sample? = some s) :
    s.timestamp.toNat = x.stamp := by
  obtain ⟨bytes, rfl, decoded⟩ := decode_of_sample? h
  exact Sample.timestamp_of_decode decoded

/-- A datagram is short or brings a sample. -/
theorem sample_of_not_short {bytes : List UInt8} (h : isShort (.datagram bytes) = false) :
    ∃ s, sample? (.datagram bytes) = some s := by
  have long : ¬bytes.length < Sample.wireSize := of_decide_eq_false h
  exact isRecord_iff.1 (decide_eq_true (Nat.not_lt.1 long))

namespace Alike

variable (alike : x.Alike y)

include alike

/-- Alike datagrams are both long enough for a record, or none of them is. -/
theorem isShort_eq : x.isShort = y.isShort := by
  cases x with
  | tick =>
    cases y with
    | tick => rfl
    | datagram => exact alike.elim
  | datagram bytes =>
    cases y with
    | tick => exact alike.elim
    | datagram bytes' =>
      have lengths := congrArg List.length alike
      have size : Sample.wireSize = 68 := rfl
      simp only [List.length_take, List.length_drop] at lengths
      simp only [isShort, size, decide_eq_decide]
      omega

/-- The rates of alike events are the same. -/
theorem rates_eq {s t : Sample} (hs : x.sample? = some s) (ht : y.sample? = some t) :
    s.rates = t.rates := by
  obtain ⟨bytes, rfl, first⟩ := decode_of_sample? hs
  obtain ⟨bytes', rfl, second⟩ := decode_of_sample? ht
  have same : (bytes.drop 56).take 12 = (bytes'.drop 56).take 12 := alike
  rw [Sample.rates_of_decode first, Sample.rates_of_decode second, same]

end Alike

end Event

/-! ## States that agree -/

namespace Detector

/-- Two detectors that differ at most in the moment at which their models were trained. -/
structure Agree (d e : Detector Float) : Prop where
  settings : d.settings = e.settings
  models : d.models? = e.models?
  backlog : d.backlog = e.backlog
  trainCount : d.trainCount = e.trainCount

/-- The clock says the same of the models of two detectors: both are old enough to be replaced, or
both are not. -/
def SameAge (d : Detector Float) (now : Moment) (e : Detector Float) (time : Moment) : Prop :=
  d.IsOld now ∧ e.IsOld time ∨ d.IsRecent now ∧ e.IsRecent time

/-- With models that are old enough the backlog alone decides. -/
theorem retrainDue_of_isOld {d : Detector Float} {now : Moment} (old : d.IsOld now) :
    d.retrainDue now = (d.models?.isSome && decide (minRetrainRows ≤ d.backlog.length)) := by
  unfold retrainDue models?
  cases trained : d.trained with
  | none => rfl
  | some pair =>
    obtain ⟨t, since⟩ := pair
    simp only [old t since trained, decide_true, Option.map_some, Option.isSome_some]

theorem trained_absorb (d : Detector Float) (x : FeatureVector Float) :
    (d.absorb x).trained = d.trained := by
  rw [absorb_eq]
  cases d.kept? x <;> rfl

/-- To judge a row does not change the age of the models. -/
theorem SameAge.absorb {d e : Detector Float} {now time : Moment} (age : SameAge d now e time)
    (x y : FeatureVector Float) : SameAge (d.absorb x) now (e.absorb y) time := by
  unfold SameAge IsOld IsRecent
  rw [trained_absorb, trained_absorb, settings_absorb, settings_absorb]
  exact age

namespace Agree

variable {d e : Detector Float} (a : Agree d e)

include a

theorem predict_eq (x : FeatureVector Float) : d.predict x = e.predict x := by
  rw [Detector.predict_eq, Detector.predict_eq, a.models, a.settings]

theorem absorb (x : FeatureVector Float) : Agree (d.absorb x) (e.absorb x) := by
  have kept : d.kept? x = e.kept? x := by
    rw [kept?, kept?, a.predict_eq]
  rw [absorb_eq, absorb_eq, kept]
  cases e.kept? x with
  | none => exact a
  | some row =>
    refine ⟨a.settings, a.models, ?_, a.trainCount⟩
    show d.backlog.push d.settings.bufferCapacity row = e.backlog.push e.settings.bufferCapacity row
    rw [a.backlog, a.settings]

theorem train (now time : Moment) (rows : List (FeatureVector Float)) :
    Agree (d.train now rows).detector (e.train time rows).detector := by
  rcases Nat.lt_or_ge (rows.filter FeatureVector.isFinite).length minTrainRows with few | enough
  · rw [d.train_of_lt few, e.train_of_lt few]
    exact a
  · rw [d.train_of_le enough, e.train_of_le enough, a.settings, a.trainCount]
    exact ⟨rfl, rfl, a.backlog, rfl⟩

variable {now time : Moment} (age : SameAge d now e time)

include age

theorem retrainDue_eq : d.retrainDue now = e.retrainDue time := by
  rcases age with ⟨old, old'⟩ | ⟨recent, recent'⟩
  · rw [retrainDue_of_isOld old, retrainDue_of_isOld old', a.models, a.backlog]
  · rw [not_retrainDue_of_isRecent recent, not_retrainDue_of_isRecent recent']

theorem maybeRetrain :
    Agree (d.maybeRetrain now).detector (e.maybeRetrain time).detector := by
  have same := a.retrainDue_eq age
  cases due : e.retrainDue time with
  | false =>
    rw [due] at same
    rw [maybeRetrain_of_not_due same, maybeRetrain_of_not_due due]
    exact a
  | true =>
    rw [due] at same
    have emptied : Agree { d with backlog := .empty } { e with backlog := .empty } :=
      ⟨a.settings, a.models, rfl, a.trainCount⟩
    rw [detector_maybeRetrain_of_due same, detector_maybeRetrain_of_due due, a.backlog]
    exact emptied.train now time _

end Agree

end Detector

/-- An alert without its timestamp. -/
def Alert.undated (a : Alert) : Alert := { a with timestamp := 0 }

/-- What is returned on two alike events is the same but for the timestamps, which are those of the
events. -/
structure SameAnswer (x y : Event × Option Alert) : Prop where
  alike : x.1.Alike y.1
  alert : x.2.map Alert.undated = y.2.map Alert.undated
  first : ∀ a, x.2 = some a → a.timestamp.toNat = x.1.stamp
  second : ∀ a, y.2 = some a → a.timestamp.toNat = y.1.stamp

theorem sameAnswer_none {x y : Event} (alike : x.Alike y) : SameAnswer (x, none) (y, none) :=
  ⟨alike, rfl, nofun, nofun⟩

namespace Monitor

/-- A sample is reported in detection, or not at all. -/
theorem alert_observe_eq (m : Monitor) (now : Moment) (s : Sample) :
    (m.observe now s).alert =
      if m.phase = .detection then m.report? s.timestamp (m.extractor.pushSample s).1
      else none := by
  cases phase : m.phase with
  | learning =>
    rw [if_neg (by decide)]
    rcases Nat.lt_or_ge (m.collected s).length m.target with few | enough
    · rw [observe_of_lt now phase few]
    · rw [observe_of_le now phase enough]
  | detection => rw [if_pos rfl, alert_observe now phase]

/-- An alert carries the timestamp of the sample that it is about. -/
theorem timestamp_of_alert {m : Monitor} {now : Moment} {s : Sample} {alert : Alert}
    (h : (m.observe now s).alert = some alert) : alert.timestamp = s.timestamp := by
  rw [alert_observe_eq] at h
  simp only [report?] at h
  split_ifs at h
  rw [← Option.some.inj h]
  rfl

/-- Two monitors that differ at most in the moment at which their models were trained. -/
structure Agree (m n : Monitor) : Prop where
  extractor : m.extractor = n.extractor
  detector : m.detector.Agree n.detector
  phase : m.phase = n.phase
  learning : m.learning = n.learning
  target : m.target = n.target
  samples : m.samples = n.samples
  anomalies : m.anomalies = n.anomalies

namespace Agree

variable {m n : Monitor} (a : Agree m n)

include a

/-- Whether there is an alert on a row, and what it says, has nothing to do with its timestamp. -/
theorem undated_report? (stamp stamp' : UInt64) (row : FeatureVector Float) :
    (m.report? stamp row).map Alert.undated = (n.report? stamp' row).map Alert.undated := by
  simp only [report?, a.detector.predict_eq]
  split_ifs <;> rfl

theorem length_report? (stamp stamp' : UInt64) (row : FeatureVector Float) :
    (m.report? stamp row).toList.length = (n.report? stamp' row).toList.length := by
  have sizes := congrArg (fun alert => alert.toList.length) (a.undated_report? stamp stamp' row)
  simp only [Option.toList_map, List.length_map] at sizes
  exact sizes

section

variable {s t : Sample} (rates : s.rates = t.rates)

include rates

theorem pushSample_eq : m.extractor.pushSample s = n.extractor.pushSample t := by
  unfold Extractor.pushSample
  rw [a.extractor, rates]

theorem collected_eq : m.collected s = n.collected t := by
  unfold collected
  rw [a.pushSample_eq rates, a.samples, a.learning]

/-- While rows are collected the moment of a record is of no account. -/
theorem observe_learning (now time : Moment) (phase : n.phase = .learning) :
    Agree (m.observe now s).monitor (n.observe time t).monitor := by
  have pushed := a.pushSample_eq rates
  have collected := a.collected_eq rates
  have phase' : m.phase = .learning := a.phase.trans phase
  rcases Nat.lt_or_ge (n.collected t).length n.target with few | enough
  · have few' : (m.collected s).length < m.target := by
      rw [collected, a.target]
      exact few
    rw [observe_of_lt now phase' few', observe_of_lt time phase few]
    exact {
      extractor := congrArg Prod.snd pushed
      detector := a.detector
      phase := a.phase
      learning := collected
      target := a.target
      samples := congrArg (· + 1) a.samples
      anomalies := a.anomalies }
  · have enough' : m.target ≤ (m.collected s).length := by
      rw [collected, a.target]
      exact enough
    rw [observe_of_le now phase' enough', observe_of_le time phase enough, collected]
    exact {
      extractor := congrArg Prod.snd pushed
      detector := a.detector.train now time _
      phase := rfl
      learning := rfl
      target := a.target
      samples := congrArg (· + 1) a.samples
      anomalies := a.anomalies }

theorem undated_alert_observe (now time : Moment) : (m.observe now s).alert.map Alert.undated
    = (n.observe time t).alert.map Alert.undated := by
  rw [alert_observe_eq, alert_observe_eq, a.pushSample_eq rates, a.phase]
  split_ifs
  · exact a.undated_report? _ _ _
  · rfl

variable {now time : Moment} (age : m.detector.SameAge now n.detector time)

include age

theorem observe_detection (phase : n.phase = .detection) :
    Agree (m.observe now s).monitor (n.observe time t).monitor := by
  have pushed := a.pushSample_eq rates
  have phase' : m.phase = .detection := a.phase.trans phase
  have reports := a.length_report? s.timestamp t.timestamp (n.extractor.pushSample t).1
  rw [monitor_observe now phase', monitor_observe time phase, pushed]
  exact {
    extractor := congrArg Prod.snd pushed
    detector := (a.detector.absorb _).maybeRetrain (age.absorb _ _)
    phase := a.phase
    learning := a.learning
    target := a.target
    samples := congrArg (· + 1) a.samples
    anomalies := by rw [a.anomalies, reports] }

/-- Records with the same rates keep states in agreement. -/
theorem observe : Agree (m.observe now s).monitor (n.observe time t).monitor := by
  cases phase : n.phase with
  | learning => exact a.observe_learning rates now time phase
  | detection => exact a.observe_detection rates age phase

end

/-- Alike events keep states in agreement, and what is returned is the same but for the
timestamps. -/
theorem step {x y : Event} (alike : x.Alike y) {now time : Moment}
    (age : m.detector.SameAge now n.detector time) :
    Agree (m.step now x).monitor (n.step time y).monitor ∧
      SameAnswer (x, (m.step now x).alert) (y, (n.step time y).alert) := by
  cases x with
  | tick =>
    cases y with
    | datagram => exact alike.elim
    | tick =>
      refine ⟨?_, sameAnswer_none alike⟩
      exact ⟨a.extractor, a.detector.maybeRetrain age, a.phase, a.learning, a.target, a.samples,
        a.anomalies⟩
  | datagram bytes =>
    cases y with
    | tick => exact alike.elim
    | datagram bytes' =>
      have both := alike.isShort_eq
      cases short : Event.isShort (.datagram bytes') with
      | true =>
        rw [short] at both
        rw [m.step_of_short now (of_decide_eq_true both),
          n.step_of_short time (of_decide_eq_true short)]
        exact ⟨a, sameAnswer_none alike⟩
      | false =>
        rw [short] at both
        obtain ⟨s, hs⟩ := Event.sample_of_not_short both
        obtain ⟨t, ht⟩ := Event.sample_of_not_short short
        have rates := alike.rates_eq hs ht
        rw [m.step_of_sample now hs, n.step_of_sample time ht]
        refine ⟨a.observe rates age, alike, a.undated_alert_observe rates now time, ?_, ?_⟩
        · intro alert h
          rw [timestamp_of_alert h, Event.timestamp_eq_stamp hs]
        · intro alert h
          rw [timestamp_of_alert h, Event.timestamp_eq_stamp ht]

end Agree

end Monitor

/-! ## Along histories -/

namespace History

/-- The events of a history that are not short datagrams. -/
def full (h : History) : History := h.filter fun entry => !entry.2.isShort

/-- What is received of a history. -/
def received (h : History) : History := h.map fun entry => (entry.1, entry.2.received)

/-- Two histories whose events are alike one by one, whenever they came in. -/
def Alike (g h : History) : Prop := List.Forall₂ (fun x y => x.2.Alike y.2) g h

theorem full_cons_of_short {now : Moment} {event : Event} (h : event.isShort = true)
    (rest : History) : full ((now, event) :: rest) = full rest :=
  List.filter_cons_of_neg (by simp [h])

theorem full_cons_of_not_short {now : Moment} {event : Event} (h : event.isShort = false)
    (rest : History) : full ((now, event) :: rest) = (now, event) :: full rest :=
  List.filter_cons_of_pos (by simp [h])

end History

namespace Monitor

/-- What is returned on the events of a history that are not short datagrams. -/
def answers (m : Monitor) : History → List (Event × Option Alert)
  | [] => []
  | (now, event) :: rest =>
    let reaction := m.step now event
    (if event.isShort then [] else [(event, reaction.alert)]) ++ reaction.monitor.answers rest

/-- The effects of a history. -/
def effects (m : Monitor) (h : History) : List Effect := (m.responses h).flatMap Reaction.effects

theorem replay_cons (m : Monitor) (now : Moment) (event : Event) (rest : History) :
    m.replay ((now, event) :: rest) = (m.step now event).monitor.replay rest := rfl

theorem answers_cons (m : Monitor) (now : Moment) (event : Event) (rest : History) :
    m.answers ((now, event) :: rest)
      = (if event.isShort then [] else [(event, (m.step now event).alert)])
        ++ (m.step now event).monitor.answers rest := rfl

theorem effects_cons (m : Monitor) (now : Moment) (event : Event) (rest : History) :
    m.effects ((now, event) :: rest)
      = (m.step now event).effects ++ (m.step now event).monitor.effects rest := rfl

theorem step_of_isShort (m : Monitor) (now : Moment) {event : Event} (h : event.isShort = true) :
    m.step now event = { monitor := m } := by
  cases event with
  | tick => cases h
  | datagram bytes => exact m.step_of_short now (of_decide_eq_true h)

/-- Nothing of what a monitor does and where it gets to tells of short datagrams. -/
theorem full_unnoticed (m : Monitor) (h : History) :
    m.replay h.full = m.replay h ∧ m.answers h.full = m.answers h ∧
      m.effects h.full = m.effects h := by
  induction h generalizing m with
  | nil => exact ⟨rfl, rfl, rfl⟩
  | cons entry rest ih =>
    obtain ⟨now, event⟩ := entry
    obtain ⟨replay, answers, effects⟩ := ih (m.step now event).monitor
    cases short : event.isShort with
    | true =>
      have same := m.step_of_isShort now short
      rw [History.full_cons_of_short short]
      rw [same] at replay answers effects
      refine ⟨?_, ?_, ?_⟩
      · rw [replay_cons, same, replay]
      · rw [answers_cons, short, if_pos rfl, same, answers, List.nil_append]
      · rw [effects_cons, same, effects, List.nil_append]
    | false =>
      rw [History.full_cons_of_not_short short]
      refine ⟨?_, ?_, ?_⟩
      · rw [replay_cons, replay_cons, replay]
      · rw [answers_cons, answers_cons, answers]
      · rw [effects_cons, effects_cons, effects]

theorem throughout_full {P : Monitor → Moment → Prop} {m : Monitor} {h : History}
    (all : m.Throughout P h) : m.Throughout P h.full := by
  induction h generalizing m with
  | nil => trivial
  | cons entry rest ih =>
    obtain ⟨now, event⟩ := entry
    obtain ⟨first, others⟩ := all
    cases short : event.isShort with
    | true =>
      rw [History.full_cons_of_short short]
      rw [m.step_of_isShort now short] at others
      exact ih others
    | false =>
      rw [History.full_cons_of_not_short short]
      exact ⟨first, ih others⟩

theorem step_received (m : Monitor) (now : Moment) (event : Event) :
    m.step now event.received = m.step now event := by
  cases event with
  | tick => rfl
  | datagram bytes => simp only [Event.received, step, Sample.decode_receive]

/-- What is cut off a datagram on its way in is not noticed either. -/
theorem received_unnoticed (m : Monitor) (h : History) :
    m.replay h.received = m.replay h ∧ m.responses h.received = m.responses h := by
  induction h generalizing m with
  | nil => exact ⟨rfl, rfl⟩
  | cons entry rest ih =>
    obtain ⟨now, event⟩ := entry
    obtain ⟨replay, responses⟩ := ih (m.step now event).monitor
    have same := m.step_received now event
    refine ⟨?_, ?_⟩
    · show (m.step now event.received).monitor.replay (History.received rest) = _
      rw [same, replay]
      rfl
    · show m.step now event.received ::
        (m.step now event.received).monitor.responses (History.received rest) = _
      rw [same, responses]
      rfl

/-- Along two histories the models in place are at every step old enough to be replaced, or along
both at no step. -/
def SameAges (m : Monitor) (g : History) (n : Monitor) (h : History) : Prop :=
  m.Throughout (fun m now => m.detector.IsOld now) g ∧
      n.Throughout (fun n time => n.detector.IsOld time) h ∨
    m.Throughout (fun m now => m.detector.IsRecent now) g ∧
      n.Throughout (fun n time => n.detector.IsRecent time) h

theorem SameAges.full {m n : Monitor} {g h : History} (ages : SameAges m g n h) :
    SameAges m g.full n h.full := by
  rcases ages with ⟨old, old'⟩ | ⟨recent, recent'⟩
  · exact .inl ⟨throughout_full old, throughout_full old'⟩
  · exact .inr ⟨throughout_full recent, throughout_full recent'⟩

/-- Alike histories keep states in agreement, and what is returned along them is the same but for
the timestamps. -/
theorem Agree.replay {m n : Monitor} (a : Agree m n) {g h : History} (alike : g.Alike h)
    (ages : SameAges m g n h) :
    Agree (m.replay g) (n.replay h) ∧ List.Forall₂ SameAnswer (m.answers g) (n.answers h) := by
  induction alike generalizing m n with
  | nil => exact ⟨a, .nil⟩
  | @cons x y g h first _ ih =>
    obtain ⟨now, event⟩ := x
    obtain ⟨time, event'⟩ := y
    obtain ⟨age, later⟩ : m.detector.SameAge now n.detector time ∧
        SameAges (m.step now event).monitor g (n.step time event').monitor h := by
      rcases ages with ⟨⟨old, olds⟩, old', olds'⟩ | ⟨⟨recent, recents⟩, recent', recents'⟩
      · exact ⟨.inl ⟨old, old'⟩, .inl ⟨olds, olds'⟩⟩
      · exact ⟨.inr ⟨recent, recent'⟩, .inr ⟨recents, recents'⟩⟩
    obtain ⟨next, answer⟩ := a.step first age
    obtain ⟨last, answers⟩ := ih next later
    refine ⟨last, ?_⟩
    rw [answers_cons, answers_cons, Event.Alike.isShort_eq first]
    cases Event.isShort event' with
    | true => exact answers
    | false => exact .cons answer answers

theorem agree_refl (m : Monitor) : Agree m m :=
  ⟨rfl, ⟨rfl, rfl, rfl, rfl⟩, rfl, rfl, rfl, rfl, rfl⟩

/-- **Only rates and timestamps matter.** Two histories agree, once short datagrams are left out, on
where there is a datagram and where an idle spell, and on the bytes of the rates in each datagram;
and the models in place are always old enough to be replaced along both, or never. Then the two end
alike in phase, counts, collected rows, backlog and predictions, and on their events that are not
short datagrams they return the same alerts but for the timestamps, each of which is the one in its
own datagram. In particular, and whatever the clock says, short datagrams can be left out anywhere
and long ones cut as they come in: the state, the alerts and the effects stay as they are. -/
theorem only_rates_and_timestamps_matter (config : Config) (settings : Settings Float)
    (g h : History) (alike : g.full.Alike h.full)
    (ages : SameAges (initial config settings) g (initial config settings) h) :
    let start := initial config settings
    let m := start.replay g
    let n := start.replay h
    m.phase = n.phase ∧ m.samples = n.samples ∧ m.anomalies = n.anomalies ∧
    m.learning.toList = n.learning.toList ∧
    m.detector.backlog.toList = n.detector.backlog.toList ∧
    m.detector.trainCount = n.detector.trainCount ∧
    (∀ x, m.detector.predict x = n.detector.predict x) ∧
    List.Forall₂ SameAnswer (start.answers g) (start.answers h) ∧
    (∀ some others : History, some.full = others.full →
      start.replay some = start.replay others ∧ start.answers some = start.answers others ∧
        start.effects some = start.effects others) ∧
    ∀ long : History,
      start.replay long.received = start.replay long ∧
        start.responses long.received = start.responses long := by
  intro start m n
  obtain ⟨replayg, answersg, -⟩ := start.full_unnoticed g
  obtain ⟨replayh, answersh, -⟩ := start.full_unnoticed h
  obtain ⟨agree, answers⟩ := start.agree_refl.replay alike ages.full
  rw [replayg, replayh] at agree
  rw [answersg, answersh] at answers
  refine ⟨agree.phase, agree.samples, agree.anomalies, congrArg _ agree.learning,
    congrArg _ agree.detector.backlog, agree.detector.trainCount, agree.detector.predict_eq,
    answers, fun some others same => ?_, start.received_unnoticed⟩
  obtain ⟨replay, answers, effects⟩ := start.full_unnoticed some
  obtain ⟨replay', answers', effects'⟩ := start.full_unnoticed others
  rw [← replay, ← answers, ← effects, same]
  exact ⟨replay', answers', effects'⟩

/-- A record of zeros and one with other counts and one byte more, a short datagram before it. -/
theorem alike_records_lead_alike :
    let config : Config := { learning := { samples := 0 } }
    let start := initial config { Settings.standard with retrainInterval := ⟨0⟩ }
    let g : History := [(0, .datagram (List.replicate 68 0)), (7, .tick)]
    let h : History :=
      [(3, .datagram [1, 2, 3]), (4, .datagram (List.replicate 56 255 ++ List.replicate 13 0)),
        (5, .tick)]
    g.full.Alike h.full ∧ SameAges start g start h ∧
      (start.replay g).phase = (start.replay h).phase ∧
      List.Forall₂ SameAnswer (start.answers g) (start.answers h) := by
  intro config start g h
  have alike : g.full.Alike h.full := .cons rfl (.cons trivial .nil)
  have ages : SameAges start g start h := .inl ⟨throughout_isOld rfl g, throughout_isOld rfl h⟩
  obtain ⟨phase, -, -, -, -, -, -, answers, -⟩ :=
    only_rates_and_timestamps_matter config _ g h alike ages
  exact ⟨alike, ages, phase, answers⟩

end Monitor

end CounterWatch
