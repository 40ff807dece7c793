/-
SongSheet/Proofs/Token/Desk.lean

A desk with one caller, as a room.

What a desk does is what may happen in a room where one caller waits at a time and each alarm
is a caller of its own, who cancels when it goes off (`exists_run_of_step`).  So the rules that
hold in every run of a room also hold of a desk.
-/
import SongSheet.Proofs.Token.Waits

namespace SongSheet

open Clock TokenDesk

namespace WaitingRoom

variable {log : List Entry} {s s' : WaitingRoom} {m : Move} {d : TokenDesk}

/-! ### Rooms that a log leads on to -/

/-- What has happened may go on until a room is as given. -/
def Reaches (log : List Entry) (s : WaitingRoom) : Prop := ∃ more, Run (log ++ more) s

theorem Reaches.step (reaches : Reaches log s) (step : Step s m s') : Reaches log s' := by
  obtain ⟨more, run⟩ := reaches
  exact ⟨more ++ [⟨s.desk.now, m⟩], by rw [← List.append_assoc]; exact run.step step⟩

/-- The last wait takes its turn. -/
theorem Reaches.turn {waits : List Wait} {w : Wait} {p : Wait.Phase}
    (reaches : Reaches log ⟨d, waits ++ [w]⟩) (turn : p ∈ w.next d) :
    Reaches log ⟨d, waits ++ [{ w with phase := p }]⟩ := by
  have next := reaches.step (.turn List.getElem?_concat_length turn)
  rwa [List.set_append_right _ _ (Nat.le_refl _), Nat.sub_self] at next

/-- Flags are raised one after the other, at one instant. -/
theorem Reaches.raise (reaches : Reaches log s) (tokens : List Nat)
    (owned : ∀ x ∈ tokens, x ∈ s.desk.handles) :
    Reaches log { s with desk := { s.desk with fired := tokens ++ s.desk.fired } } := by
  induction tokens with
  | nil => exact reaches
  | cons x tokens ih =>
      obtain ⟨mine, others⟩ := List.forall_mem_cons.1 owned
      obtain ⟨h, own⟩ := List.getElem?_of_mem mine
      exact (ih others).step (@Step.act _ h x .cancel rfl own)

/-- Those who wait do so for one flag that is down, and until an instant at least. -/
def Dozes (s : WaitingRoom) (token T : Nat) : Prop :=
  s.desk.isFired token = false ∧ ∀ w ∈ s.waits, w.hasEnded = true ∨
    w.phase = .watching 0 ∧ w.token = token ∧ ∀ e ∈ w.deadline, T ≤ tick e

theorem Dozes.next_eq_nil {x T : Nat} (dozes : s.Dozes x T) (early : s.desk.now < T) :
    ∀ w ∈ s.waits, w.next s.desk = [] := by
  intro w hw
  rcases dozes.2 w hw with ended | ⟨phase, rfl, late⟩
  · obtain ⟨_, _, phase⟩ := Wait.hasEnded_iff.1 ended
    rw [Wait.next, phase]
  · have timeout : w.timeout s.desk = [] := List.eq_nil_iff_forall_not_mem.2 fun p due => by
      obtain ⟨-, e, he, due⟩ := Wait.mem_timeout.1 due
      exact absurd (early.trans_le ((late e he).trans due)) (Nat.lt_irrefl _)
    rw [Wait.next, phase, timeout]
    exact (List.append_nil _).trans (if_pos (version_eq_zero_iff.2 dozes.1).symm)

/-- Time passes by those who doze. -/
theorem Reaches.pass {x T later : Nat} (reaches : Reaches log s) (dozes : s.Dozes x T)
    (after : s.desk.now ≤ later) (inTime : later ≤ T) :
    Reaches log { s with desk := { s.desk with now := later } } := by
  rcases Nat.lt_or_eq_of_le after with after | same
  · refine reaches.step (.pass after (dozes.next_eq_nil (after.trans_le inTime)) ?_)
    intro w hw going e he
    rcases dozes.2 w hw with ended | ⟨-, -, late⟩
    · rw [ended] at going
      cases going
    · exact inTime.trans (late e he)
  · rwa [← same]

/-- Alarms for other flags go off in their order. -/
theorem Reaches.passAll {x T : Nat} {alarms : List Alarm} (reaches : Reaches log s)
    (dozes : s.Dozes x T) (sorted : alarms.Pairwise (·.instant ≤ ·.instant))
    (between : ∀ a ∈ alarms, s.desk.now ≤ a.instant ∧ a.instant ≤ T) (inTime : s.desk.now ≤ T)
    (others : ∀ a ∈ alarms, a.token ≠ x ∧ a.token ∈ s.desk.handles) :
    ∃ fired, Reaches log { s with desk := { s.desk with now := T, fired := fired } } ∧
      ∀ y, y ∈ fired ↔ y ∈ alarms.map (·.token) ∨ y ∈ s.desk.fired := by
  induction alarms generalizing s with
  | nil => exact ⟨s.desk.fired, reaches.pass dozes inTime (Nat.le_refl _), by simp⟩
  | cons a alarms ih =>
      obtain ⟨soonest, sorted⟩ := List.pairwise_cons.1 sorted
      obtain ⟨⟨after, early⟩, between⟩ := List.forall_mem_cons.1 between
      obtain ⟨⟨other, owned⟩, others⟩ := List.forall_mem_cons.1 others
      -- the clock is set to the first alarm, which goes off without waking the one who dozes
      have raised := (reaches.pass dozes after early).raise [a.token]
        (List.forall_mem_singleton.2 owned)
      have dozes' : Dozes { s with desk :=
          { s.desk with now := a.instant, fired := [a.token] ++ s.desk.fired } } x T := by
        refine ⟨(isFired_fire s.desk a.token x).trans ?_, dozes.2⟩
        rw [dozes.1, beq_eq_false_iff_ne.2 other.symm, Bool.or_self]
      obtain ⟨fired, reaches', mem⟩ := ih raised dozes' sorted
        (fun b hb => ⟨soonest b hb, (between b hb).2⟩) early others
      refine ⟨fired, reaches', fun y => (mem y).trans ?_⟩
      rw [List.map_cons, List.mem_cons, List.singleton_append, List.mem_cons]
      tauto

/-- Alarms for other flags go off, each at its instant. -/
theorem Reaches.passTo {x T : Nat} (reaches : Reaches log s) (dozes : s.Dozes x T)
    (inTime : s.desk.now ≤ T) (alarms : List Alarm)
    (between : ∀ a ∈ alarms, s.desk.now ≤ a.instant ∧ a.instant ≤ T)
    (others : ∀ a ∈ alarms, a.token ≠ x ∧ a.token ∈ s.desk.handles) :
    ∃ fired, Reaches log { s with desk := { s.desk with now := T, fired := fired } } ∧
      ∀ y, y ∈ fired ↔ y ∈ alarms.map (·.token) ∨ y ∈ s.desk.fired := by
  have perm := alarms.mergeSort_perm fun a b => a.instant ≤ b.instant
  have sorted : (alarms.mergeSort fun a b => a.instant ≤ b.instant).Pairwise
      (·.instant ≤ ·.instant) := by
    refine (List.pairwise_mergeSort (fun a b c first second => ?_) (fun a b => ?_) alarms).imp
      of_decide_eq_true
    · exact decide_eq_true ((of_decide_eq_true first).trans (of_decide_eq_true second))
    · rw [← Bool.decide_or]
      exact decide_eq_true (Nat.le_total _ _)
  obtain ⟨fired, reaches', mem⟩ := reaches.passAll dozes sorted
    (fun a ha => between a (perm.mem_iff.1 ha)) inTime fun a ha => others a (perm.mem_iff.1 ha)
  exact ⟨fired, reaches', fun y => by rw [mem, (perm.map _).mem_iff]⟩

/-! ### What a desk shows -/

/-- A room in which nobody waits is as a desk says. -/
structure Shows (s : WaitingRoom) (d : TokenDesk) : Prop where
  now : s.desk.now = d.now
  tokens : s.desk.tokens = d.tokens
  handles : s.desk.handles = d.handles
  mem_fired : ∀ x, x ∈ s.desk.fired ↔ x ∈ d.fired
  idle : ∀ w ∈ s.waits, w.hasEnded = true
  /-- No alarm lies in the past, and who is to set it off has a handle. -/
  alarms : ∀ a ∈ d.alarms, d.now ≤ a.instant ∧ a.token ∈ d.handles

theorem Shows.isFired (shows : s.Shows d) (x : Nat) : s.desk.isFired x = d.isFired x := by
  rw [Bool.eq_iff_iff, TokenDesk.isFired, TokenDesk.isFired, List.contains_iff_mem,
    List.contains_iff_mem, shows.mem_fired]

/-! ### A wait at a desk -/

theorem firstAlarm?_eq_some {x T c : Nat} (first : d.firstAlarm? x T = some c) :
    c < T ∧ (∃ a ∈ d.alarms, a.token = x ∧ a.instant = c) ∧
      ∀ a ∈ d.alarms, a.token = x → a.instant < T → c ≤ a.instant := by
  obtain ⟨found, least⟩ := List.min?_eq_some_iff.1 first
  obtain ⟨a, ha, rfl⟩ := List.mem_map.1 found
  obtain ⟨ha, own⟩ := List.mem_filter.1 ha
  rw [Bool.and_eq_true, beq_iff_eq, decide_eq_true_eq] at own
  refine ⟨own.2, ⟨a, ha, own.1, rfl⟩, fun b hb token early => ?_⟩
  exact least _ (List.mem_map.2 ⟨b, List.mem_filter.2 ⟨hb, by simp [token, early]⟩, rfl⟩)

theorem le_of_firstAlarm?_eq_none {x T : Nat} (none : d.firstAlarm? x T = none) :
    ∀ a ∈ d.alarms, a.token = x → T ≤ a.instant := by
  intro a ha token
  have empty := List.map_eq_nil_iff.1 (List.min?_eq_none_iff.1 none)
  refine Nat.le_of_not_lt fun early => ?_
  exact List.filter_eq_nil_iff.1 empty a ha (by simp [token, early])

/-- Alarms go off while one dozes. -/
theorem Shows.passTo {x D T : Nat} (due : Alarm → Bool) (shows : s.Shows d)
    (down : d.isFired x = false)
    (reaches : Reaches log ⟨s.desk, s.waits ++ [⟨x, some D, .watching 0⟩]⟩)
    (inTime : d.now ≤ T) (late : T ≤ tick D)
    (others : ∀ a ∈ d.alarms, due a = true → a.instant ≤ T ∧ a.token ≠ x) :
    ∃ fired, Reaches log ⟨{ s.desk with now := T, fired := fired },
        s.waits ++ [⟨x, some D, .watching 0⟩]⟩ ∧
      ∀ y, y ∈ fired ↔ y ∈ (d.passTo T due).fired := by
  have dozes : Dozes ⟨s.desk, s.waits ++ [⟨x, some D, .watching 0⟩]⟩ x T := by
    refine ⟨(shows.isFired x).trans down, List.forall_mem_append.2
      ⟨fun w hw => .inl (shows.idle w hw), List.forall_mem_singleton.2 (.inr ⟨rfl, rfl, ?_⟩)⟩⟩
    rintro e ⟨⟩
    exact late
  have mem {a : Alarm} (ha : a ∈ d.alarms.filter due) : a ∈ d.alarms ∧ due a = true :=
    List.mem_filter.1 ha
  obtain ⟨fired, reaches', fired_iff⟩ := reaches.passTo dozes (shows.now.trans_le inTime)
    (d.alarms.filter due)
    (fun a ha => ⟨shows.now.trans_le (shows.alarms a (mem ha).1).1,
      (others a (mem ha).1 (mem ha).2).1⟩)
    fun a ha => ⟨(others a (mem ha).1 (mem ha).2).2, shows.handles ▸ (shows.alarms a (mem ha).1).2⟩
  refine ⟨fired, reaches', fun y => ?_⟩
  rw [fired_iff, shows.mem_fired, TokenDesk.passTo]
  exact List.mem_append.symm

/-- What a desk shows once alarms have gone off. -/
theorem Shows.of_passTo {desk : TokenDesk} {waits : List Wait} {T : Nat} {due : Alarm → Bool}
    (shows : s.Shows d) (now : desk.now = T) (tokens : desk.tokens = s.desk.tokens)
    (handles : desk.handles = s.desk.handles)
    (mem_fired : ∀ y, y ∈ desk.fired ↔ y ∈ (d.passTo T due).fired)
    (idle : ∀ w ∈ waits, w.hasEnded = true)
    (left : ∀ a ∈ d.alarms, due a = false → T ≤ a.instant) :
    Shows ⟨desk, waits⟩ (d.passTo T due) where
  now := now
  tokens := tokens.trans shows.tokens
  handles := handles.trans shows.handles
  mem_fired := mem_fired
  idle := idle
  alarms a ha := by
    obtain ⟨ha, going⟩ := List.mem_filter.1 ha
    exact ⟨left a ha (Bool.not_eq_true' _ ▸ going), (shows.alarms a ha).2⟩

/-- What goes off up to an instant goes off before it or at it. -/
theorem mem_fired_passTo_le {c y : Nat} :
    y ∈ (d.passTo c fun a => a.instant ≤ c).fired ↔
      y ∈ (d.alarms.filter fun a => a.instant = c).map (·.token) ∨
        y ∈ (d.passTo c fun a => a.instant < c).fired := by
  simp only [TokenDesk.passTo, List.mem_append, List.mem_map, List.mem_filter, decide_eq_true_eq,
    Nat.le_iff_lt_or_eq]
  constructor
  · rintro (⟨a, ⟨ha, early | same⟩, rfl⟩ | up)
    · exact .inr (.inl ⟨a, ⟨ha, early⟩, rfl⟩)
    · exact .inl ⟨a, ⟨ha, same⟩, rfl⟩
    · exact .inr (.inr up)
  · rintro (⟨a, ⟨ha, same⟩, rfl⟩ | ⟨a, ⟨ha, early⟩, rfl⟩ | up)
    · exact .inl ⟨a, ⟨ha, .inr same⟩, rfl⟩
    · exact .inl ⟨a, ⟨ha, .inl early⟩, rfl⟩
    · exact .inr up

/-- The last of those who wait is done, at the instant of a desk that is shown. -/
def Ends (log : List Entry) (s : WaitingRoom) (x D : Nat) (d : TokenDesk) (slept : Bool) : Prop :=
  ∃ desk, Reaches log ⟨desk, s.waits ++ [⟨x, some D, .ended d.now slept⟩]⟩ ∧
    Shows ⟨desk, s.waits ++ [⟨x, some D, .ended d.now slept⟩]⟩ d

theorem Shows.over_concat (shows : s.Shows d) (x D e : Nat) (slept : Bool) :
    ∀ w ∈ s.waits ++ [⟨x, some D, .ended e slept⟩], w.hasEnded = true :=
  List.forall_mem_append.2 ⟨shows.idle, List.forall_mem_singleton.2 rfl⟩

/-- A wait that ends at once. -/
theorem Shows.ends_at_once {x D : Nat} {slept : Bool} {p : Wait.Phase}
    (shows : s.Shows d) (reaches : Reaches log ⟨s.desk, s.waits ++ [⟨x, some D, p⟩]⟩)
    (turn : .ended s.desk.now slept ∈ Wait.next s.desk ⟨x, some D, p⟩) :
    Ends log s x D d slept := by
  refine ⟨s.desk, ?_, shows.now, shows.tokens, shows.handles, shows.mem_fired,
    shows.over_concat x D _ _, shows.alarms⟩
  rw [← shows.now]
  exact reaches.turn turn

/-- A wait that an alarm cuts short. -/
theorem Shows.ends_at_alarm {x D c : Nat} (shows : s.Shows d) (down : d.isFired x = false)
    (reaches : Reaches log ⟨s.desk, s.waits ++ [⟨x, some D, .watching 0⟩]⟩)
    (first : d.firstAlarm? x (tick D) = some c) :
    Ends log s x D (d.passTo c fun a => a.instant ≤ c) false := by
  obtain ⟨early, ⟨a, ha, token, same⟩, least⟩ := firstAlarm?_eq_some first
  have inTime : d.now ≤ c := same ▸ (shows.alarms a ha).1
  obtain ⟨fired, dozing, mem_fired⟩ := shows.passTo (fun a => a.instant < c) down reaches inTime
    early.le fun b hb due => by
      have due := of_decide_eq_true due
      refine ⟨due.le, fun own => ?_⟩
      exact absurd (least b hb own (due.trans early)) (Nat.not_le.2 due)
  -- the alarms of the instant itself go off in any order
  have raised := dozing.raise ((d.alarms.filter fun a => a.instant = c).map (·.token)) <| by
    intro y hy
    obtain ⟨b, hb, rfl⟩ := List.mem_map.1 hy
    exact shows.handles ▸ (shows.alarms b (List.mem_filter.1 hb).1).2
  have up : x ∈ (d.alarms.filter fun a => a.instant = c).map (·.token) :=
    List.mem_map.2 ⟨a, List.mem_filter.2 ⟨ha, decide_eq_true same⟩, token⟩
  refine ⟨_, raised.turn (p := .ended c false) ?_, shows.of_passTo rfl rfl rfl (fun y => ?_)
    (shows.over_concat x D _ _) fun a ha left => ?_⟩
  · exact Wait.ended_mem_next rfl (List.contains_iff_mem.2 (List.mem_append_left fired up))
  · rw [mem_fired_passTo_le, List.mem_append, mem_fired]
  · exact (Nat.lt_of_not_le (of_decide_eq_false left)).le

/-- A wait that the timer ends. -/
theorem Shows.ends_at_deadline {x D : Nat} (shows : s.Shows d) (down : d.isFired x = false)
    (reaches : Reaches log ⟨s.desk, s.waits ++ [⟨x, some D, .watching 0⟩]⟩)
    (early : d.now ≤ tick D) (none : d.firstAlarm? x (tick D) = none) :
    Ends log s x D (d.passTo (tick D) fun a => a.instant < tick D) true := by
  obtain ⟨fired, dozing, mem_fired⟩ := shows.passTo (fun a => a.instant < tick D) down reaches early
    (Nat.le_refl _) fun a ha due => by
      have due := of_decide_eq_true due
      refine ⟨due.le, fun own => ?_⟩
      exact absurd (le_of_firstAlarm?_eq_none none a ha own) (Nat.not_le.2 due)
  refine ⟨_, dozing.turn (p := .ended (tick D) true) ?_, shows.of_passTo rfl rfl rfl mem_fired
    (shows.over_concat x D _ _) fun a ha left => ?_⟩
  · exact List.mem_append_right _ (Wait.mem_timeout.2 ⟨rfl, D, rfl, Nat.le_refl _⟩)
  · exact Nat.le_of_not_lt (of_decide_eq_false left)

/-- A room in which one wait goes on over what a desk says. -/
theorem Shows.wait {x D : Nat} (shows : s.Shows d)
    (reaches : Reaches log ⟨s.desk, s.waits ++ [⟨x, some D, .called⟩]⟩) :
    Ends log s x D (d.wait x D).1 !(d.wait x D).2 := by
  have flag := shows.isFired x
  rw [TokenDesk.wait]
  split
  case isTrue up =>
    refine shows.ends_at_once reaches ?_
    rw [Wait.next]
    dsimp only
    rw [if_pos (flag.trans up)]
    exact List.mem_singleton_self _
  case isFalse down =>
    have down := Bool.eq_false_iff.2 down
    have racing := reaches.turn (p := .racing) <| by
      rw [Wait.next]
      dsimp only
      rw [flag, down]
      exact List.mem_singleton_self _
    split
    case isTrue due =>
      have due : tick D ≤ s.desk.now := shows.now ▸ due
      exact shows.ends_at_once racing
        (List.mem_cons_of_mem _ (Wait.mem_timeout.2 ⟨rfl, D, rfl, due⟩))
    case isFalse early =>
      -- nobody else is there to raise the flag before the receiver reads it
      have watching := (racing.turn List.mem_cons_self).turn (p := .watching 0) <|
        List.mem_cons.2 <| .inl <| by
          rw [Wait.read, if_neg (by rw [flag, down]; exact Bool.false_ne_true),
            version_eq_zero_iff.2 (flag.trans down)]
      split
      case h_1 c first => exact shows.ends_at_alarm down watching first
      case h_2 none => exact shows.ends_at_deadline down watching (Nat.le_of_not_le early) none

/-! ### Actions at a desk -/

/-- The call by which an action waits, and its answer where that has slept. -/
def waitOf : Action → Option (WaitKind × Bool)
  | .sleep length => some (.sleep length, true)
  | .sleepUntil instant => some (.sleepUntil instant, true)
  | .awaitCancel length => some (.sleep length, false)
  | .new | .clone | .cancel | .isCancelled | .cancelIn _ => none

theorem waitOf_of_isPrompt {a : Action} (now : a.isPrompt = true) : waitOf a = none := by
  cases a with
  | new | clone | cancel | isCancelled | cancelIn => rfl
  | sleep | sleepUntil | awaitCancel => cases now

/-- How the answer `r` of an action that begins at `t` and ends at `e` is found in a room. -/
structure Answers (more : List Entry) (s : WaitingRoom) (t e h : Nat) (a : Action) (r : Result) :
    Prop where
  prompt : a.isPrompt = true → ⟨t, .act h a r⟩ ∈ more
  wait : ∀ k yes, waitOf a = some (k, yes) → ∃ i w slept, ⟨t, .call h k i⟩ ∈ more ∧
    s.waits[i]? = some w ∧ w.phase = .ended e slept ∧ r = .flag (slept == yes)

variable {h x : Nat}

/-- What takes no time is done in the same way over a desk and in a room. -/
theorem Shows.act (shows : s.Shows d) (x : Nat) {a : Action} (prompt : a.isPrompt = true) :
    (s.desk.act x a).2 = (d.act x a).2 ∧
      Shows { s with desk := (s.desk.act x a).1 } (d.act x a).1 := by
  obtain ⟨now, tokens, handles, mem_fired, idle, alarms⟩ := shows
  cases a with
  | new =>
      exact ⟨congrArg (fun hs : List Nat => Result.handle hs.length) handles, now,
        congrArg (· + 1) tokens, congrArg₂ (fun hs n => hs ++ [n]) handles tokens, mem_fired, idle,
        fun a ha => ⟨(alarms a ha).1, List.mem_append_left _ (alarms a ha).2⟩⟩
  | clone =>
      exact ⟨congrArg (fun hs : List Nat => Result.handle hs.length) handles, now, tokens,
        congrArg (· ++ [x]) handles, mem_fired, idle,
        fun a ha => ⟨(alarms a ha).1, List.mem_append_left _ (alarms a ha).2⟩⟩
  | cancel =>
      refine ⟨rfl, now, tokens, handles, fun y => ?_, idle, alarms⟩
      exact List.mem_cons.trans ((or_congr_right (mem_fired y)).trans List.mem_cons.symm)
  | isCancelled =>
      have flag := isFired ⟨now, tokens, handles, mem_fired, idle, alarms⟩ x
      exact ⟨congrArg Result.flag flag, now, tokens, handles, mem_fired, idle, alarms⟩
  | sleep | sleepUntil | cancelIn | awaitCancel => cases prompt

/-- Setting an alarm takes no time, but what is due goes off. -/
theorem Shows.setAlarm (shows : s.Shows d) (run : Run log s) (a : Alarm) (after : d.now ≤ a.instant)
    (owned : a.token ∈ d.handles) :
    ∃ s', Reaches log s' ∧ s'.Shows (d.setAlarm a) := by
  have shows' : s.Shows { d with alarms := d.alarms ++ [a] } :=
    ⟨shows.now, shows.tokens, shows.handles, shows.mem_fired, shows.idle,
      List.forall_mem_append.2 ⟨shows.alarms, List.forall_mem_singleton.2 ⟨after, owned⟩⟩⟩
  have reaches : Reaches log s := ⟨[], by rwa [List.append_nil]⟩
  refine ⟨_, reaches.raise
    (((d.alarms ++ [a]).filter fun b => b.instant ≤ d.now).map (·.token)) ?_,
    shows'.of_passTo shows.now rfl rfl (fun y => ?_) shows.idle fun b _ left => ?_⟩
  · intro y hy
    obtain ⟨b, hb, rfl⟩ := List.mem_map.1 hy
    exact shows.handles ▸ (shows'.alarms b (List.mem_filter.1 hb).1).2
  · exact List.mem_append.trans ((or_congr_right (shows.mem_fired y)).trans List.mem_append.symm)
  · exact (Nat.lt_of_not_le (of_decide_eq_false left)).le

/-- A call at a desk is one in a room, where it ends at the same instant in the same way. -/
theorem Shows.call (shows : s.Shows d) (run : Run log s) (owned : d.handles[h]? = some x)
    (k : WaitKind) {D : Nat} (deadline : k.deadline d.now = some D) :
    ∃ more s' i w, Run (log ++ more) s' ∧ s'.Shows (d.wait x D).1 ∧ ⟨d.now, .call h k i⟩ ∈ more ∧
      s'.waits[i]? = some w ∧ w.phase = .ended (d.wait x D).1.now !(d.wait x D).2 := by
  have call := run.step (.call k (shows.handles ▸ owned))
  rw [shows.now, deadline] at call
  obtain ⟨desk, ⟨more, reaches⟩, ends⟩ := shows.wait ⟨[], by rw [List.append_nil]; exact call⟩
  rw [List.append_assoc] at reaches
  exact ⟨_, _, _, _, reaches, ends, List.mem_cons_self, List.getElem?_concat_length, rfl⟩

/-- What takes no time at a desk takes none in a room. -/
theorem Shows.prompt (shows : s.Shows d) (run : Run log s) (owned : d.handles[h]? = some x)
    {a : Action} (now : a.isPrompt = true) :
    ∃ more s', Run (log ++ more) s' ∧ s'.Shows (d.act x a).1 ∧
      Answers more s' d.now (d.act x a).1.now h a (d.act x a).2 := by
  obtain ⟨same, shows'⟩ := shows.act x now
  refine ⟨_, _, run.step (.act now (shows.handles ▸ owned)), shows', fun _ => ?_, ?_⟩
  · rw [same, shows.now]
    exact List.mem_singleton_self _
  · rw [waitOf_of_isPrompt now]
    exact nofun

/-- What waits at a desk waits in a room. -/
theorem Shows.answers (shows : s.Shows d) (run : Run log s) (owned : d.handles[h]? = some x)
    {a : Action} {k : WaitKind} {D : Nat} {yes : Bool} (own : waitOf a = some (k, yes))
    (deadline : k.deadline d.now = some D)
    (act : d.act x a = ((d.wait x D).1, .flag ((!(d.wait x D).2) == yes))) :
    ∃ more s', Run (log ++ more) s' ∧ s'.Shows (d.act x a).1 ∧
      Answers more s' d.now (d.act x a).1.now h a (d.act x a).2 := by
  obtain ⟨more, s', i, w, run', shows', call, found, phase⟩ := shows.call run owned k deadline
  rw [act]
  refine ⟨more, s', run', shows', fun now => ?_, fun k' yes' eq => ?_⟩
  · cases (waitOf_of_isPrompt now).symm.trans own
  · cases own.symm.trans eq
    exact ⟨i, w, _, call, found, phase, rfl⟩

/-- What a desk does is done in a room. -/
theorem exists_run_of_step (run : Run log s) (shows : s.Shows d)
    (owned : h < d.handles.length) (a : Action) :
    ∃ more s', Run (log ++ more) s' ∧ s'.Shows (d.step h a).1 ∧
      Answers more s' d.now (d.step h a).1.now h a (d.step h a).2 := by
  obtain ⟨x, owned⟩ : ∃ x, d.handles[h]? = some x := ⟨_, List.getElem?_eq_getElem owned⟩
  rw [TokenDesk.step, owned]
  cases a with
  | new | clone | cancel | isCancelled => exact shows.prompt run owned rfl
  | sleep length =>
      exact shows.answers run owned (k := .sleep length) (D := d.now + length) rfl rfl
        (by rw [beq_true]; rfl)
  | sleepUntil instant =>
      refine shows.answers run owned (k := .sleepUntil instant) (D := instant) rfl rfl ?_
      rw [beq_true]
      rfl
  | awaitCancel length =>
      refine shows.answers run owned (k := .sleep length) (D := d.now + length) rfl rfl ?_
      rw [beq_false, Bool.not_not]
      rfl
  | cancelIn length =>
      obtain ⟨s', ⟨more, run'⟩, shows'⟩ := shows.setAlarm run ⟨tick (d.now + length), x⟩
        ((Nat.le_add_right _ _).trans (le_tick _)) (List.mem_of_getElem? owned)
      refine ⟨more, s', run', shows', ?_, ?_⟩
      · rintro ⟨⟩
      · rintro _ _ ⟨⟩

/-- A room with nobody in it shows a new desk. -/
theorem shows_initial : WaitingRoom.initial.Shows TokenDesk.initial :=
  ⟨rfl, rfl, rfl, fun _ => Iff.rfl, nofun, nofun⟩

end WaitingRoom

open WaitingRoom

/-- Tokens lose no signal, however calls, cancellations and the turns of any number of waits are
interleaved.  A handle reads that it is cancelled just if a handle that is akin to it was
cancelled before, and it goes on to do so.  A wait ends at once if the flag was up before; else
where the flag goes up no later than the timer fires, at that instant; else where the timer fires;
until then neither instant has gone by, and what is to end can end.  A desk with one caller is
such a room. -/
theorem signals_are_never_lost :
    (∀ log s, Run log s →
      (∀ h < s.desk.handles.length,
        (s.desk.step h .isCancelled).2 = .flag true ↔ (cancels log log h).Nonempty) ∧
      (∀ m s', Step s m s' → ∀ h, (s.desk.step h .isCancelled).2 = .flag true →
        (s'.desk.step h .isCancelled).2 = .flag true) ∧
      (∀ earlier t h k i later, log = earlier ++ ⟨t, .call h k i⟩ :: later →
        ∃ w, s.waits[i]? = some w ∧
          (∀ e slept, w.phase = .ended e slept →
            Wait.Outcome t (k.deadline t) (cancels log earlier h).Nonempty (cancels log later h)
              e slept) ∧
          (w.hasEnded = false →
            Wait.InTime s.desk.now t (k.deadline t) (cancels log earlier h).Nonempty
              (cancels log later h))) ∧
      ∃ more s', Run (log ++ more) s' ∧ (∀ e ∈ more, e.move.isOfWaits = true) ∧ s'.IsAtRest) ∧
    WaitingRoom.initial.Shows TokenDesk.initial ∧
    ∀ log s d, Run log s → s.Shows d → ∀ h < d.handles.length, ∀ a,
      ∃ more s', Run (log ++ more) s' ∧ s'.Shows (d.step h a).1 ∧
        Answers more s' d.now (d.step h a).1.now h a (d.step h a).2 := by
  refine ⟨fun log s run => ⟨fun h owned => isCancelled_iff run owned,
    fun m s' step h up => step.stays_cancelled run up, fun earlier t h k i later eq => ?_,
    exists_rest run⟩, shows_initial,
    fun log s d run shows h owned a => exists_run_of_step run shows owned a⟩
  obtain ⟨w, found, owned, deadline, keeps⟩ := hasWait_of_run run earlier t h k i later eq
  rw [raisings_eq_cancels run owned, raisings_eq_cancels run owned] at keeps
  rw [← deadline]
  exact ⟨w, found, fun e slept => keeps.outcome, keeps.inTime⟩

/-- A sleep until 5 ms is begun and watches the flag when its handle is cloned, and is cut short
through the clone at 2 ms. -/
def clonedLog : List Entry :=
  [⟨0, .call 0 (.sleepUntil 5000000) 0⟩, ⟨0, .turn 0⟩, ⟨0, .turn 0⟩, ⟨0, .turn 0⟩,
    ⟨0, .act 0 .clone (.handle 1)⟩, ⟨0, .pass 2000000⟩, ⟨2000000, .act 1 .cancel .nothing⟩,
    ⟨2000000, .turn 0⟩]

/-- The room before the last turn. -/
def clonedRoom (p : Wait.Phase) : WaitingRoom :=
  ⟨⟨2000000, 1, [0, 0], [0], []⟩, [⟨0, some 5000000, p⟩]⟩

theorem run_clonedLog : Run (clonedLog.take 7) (clonedRoom (.watching 0)) := by
  have called := Run.start.step (@Step.call _ 0 0 (.sleepUntil 5000000) rfl)
  have racing := called.step (@Step.turn _ 0 _ .racing rfl (by decide))
  have subscribed := racing.step (@Step.turn _ 0 _ .subscribed rfl (by decide))
  have watching := subscribed.step (@Step.turn _ 0 _ (.watching 0) rfl (by decide))
  have cloned := watching.step (@Step.act _ 0 0 .clone rfl rfl)
  have passed := cloned.step (@Step.pass _ 2000000 (by decide) (by decide) (by decide))
  exact passed.step (@Step.act _ 1 0 .cancel rfl rfl)

theorem step_clonedRoom :
    Step (clonedRoom (.watching 0)) (.turn 0) (clonedRoom (.ended 2000000 false)) :=
  @Step.turn _ 0 ⟨0, some 5000000, .watching 0⟩ (.ended 2000000 false) rfl (by decide)

/-- The first handle is cancelled through the second; its wait is in time before its last turn,
and has ended then. -/
theorem signals_are_never_lost_through_clone :
    (cancels clonedLog clonedLog 0).Nonempty ∧
      Wait.InTime 2000000 0 (some 5000000) (cancels (clonedLog.take 7) [] 0).Nonempty
        (cancels (clonedLog.take 7) ((clonedLog.take 7).drop 1) 0) ∧
      Wait.Outcome 0 (some 5000000) (cancels clonedLog [] 0).Nonempty
        (cancels clonedLog (clonedLog.drop 1) 0) 2000000 false ∧
      ((clonedRoom (.ended 2000000 false)).desk.step 1 .isCancelled).2 = .flag true ∧
      ∃ more s', Run more s' ∧ s'.Shows (TokenDesk.initial.step 0 (.sleep 1)).1 ∧
        Answers more s' 0 1000000 0 (.sleep 1) (.flag true) := by
  have before := signals_are_never_lost.1 _ _ run_clonedLog
  have ended := signals_are_never_lost.1 clonedLog _ (run_clonedLog.step step_clonedRoom)
  obtain ⟨v, found, -, inTime⟩ :=
    before.2.2.1 [] 0 0 (.sleepUntil 5000000) 0 ((clonedLog.take 7).drop 1) rfl
  cases Option.some.inj found
  obtain ⟨w, found, outcome, -⟩ := ended.2.2.1 [] 0 0 (.sleepUntil 5000000) 0 (clonedLog.drop 1) rfl
  cases Option.some.inj found
  exact ⟨(ended.1 0 (by decide)).1 rfl, inTime rfl, outcome _ _ rfl,
    before.2.1 _ _ step_clonedRoom 1 rfl,
    signals_are_never_lost.2.2 [] _ _ .start signals_are_never_lost.2.1 0 (by decide) (.sleep 1)⟩

end SongSheet
