/-
SongSheet/Proofs/Token/Waits.lean

How waits end.

A wait has ended by one of three rules (`Wait.Outcome`), or else neither its deadline nor a
cancellation lies behind it (`Wait.InTime`).  Every turn and every move of others keeps this
(`Wait.Keeps`); what carries it through the moments between the look at the flag and the
receiver is that time stands still there, and behind them that a receiver has seen no version of
the flag but the first, so that it goes on as soon as there is another.
-/
import SongSheet.Proofs.Token.WaitingRoom
import Mathlib.Data.Nat.Find

namespace SongSheet

open Clock TokenDesk

namespace Wait

/-! ### Outcomes -/

/-- How a wait with a deadline may end, where it began at `t` and the flag was raised at
`cancels` since. -/
inductive Outcome (t : Nat) (deadline : Option Nat) (before : Prop) (cancels : Set Nat) :
    Nat → Bool → Prop
  /-- The flag was up before. -/
  | already : before → Outcome t deadline before cancels t false
  /-- The flag went up in time. -/
  | cut {c : Nat} : ¬ before → IsLeast cancels c → (∀ e ∈ deadline, c ≤ max t (tick e)) →
      Outcome t deadline before cancels c false
  /-- The flag did not go up earlier than the timer fired. -/
  | slept {e : Nat} : ¬ before → deadline = some e → (∀ c ∈ cancels, max t (tick e) ≤ c) →
      Outcome t deadline before cancels (max t (tick e)) true

/-- Nothing that ends a wait lies behind it. -/
structure InTime (now t : Nat) (deadline : Option Nat) (before : Prop) (cancels : Set Nat) :
    Prop where
  at_once : before → now = t
  not_missed : ∀ c ∈ cancels, now ≤ c
  not_late : ∀ e ∈ deadline, now ≤ max t (tick e)

variable {now t : Nat} {deadline : Option Nat} {before : Prop} {cancels more : Set Nat}

/-- Later cancellations do not change how a wait has ended. -/
theorem Outcome.mono {e : Nat} {slept : Bool}
    (outcome : Outcome t deadline before cancels e slept) (past : e ≤ now)
    (sub : cancels ⊆ more) (new : ∀ c ∈ more, c ∈ cancels ∨ c = now) :
    Outcome t deadline before more e slept := by
  cases outcome with
  | already h => exact .already h
  | cut h least inTime =>
      refine .cut h ⟨sub least.1, fun c hc => ?_⟩ inTime
      rcases new c hc with hc | rfl
      · exact least.2 hc
      · exact past
  | slept h some later =>
      refine .slept h some fun c hc => ?_
      rcases new c hc with hc | rfl
      · exact later c hc
      · exact past

theorem InTime.mono (h : InTime now t deadline before cancels)
    (new : ∀ c ∈ more, c ∈ cancels ∨ c = now) : InTime now t deadline before more where
  at_once := h.at_once
  not_missed c hc := by
    rcases new c hc with hc | rfl
    · exact h.not_missed c hc
    · exact Nat.le_refl _
  not_late := h.not_late

/-- A flag that is found up cuts a wait short in time. -/
theorem InTime.cut (h : InTime now t deadline before cancels)
    (fired : before ∨ cancels.Nonempty) (recent : ∀ c ∈ cancels, c ≤ now) :
    Outcome t deadline before cancels now false := by
  by_cases earlier : before
  · rw [h.at_once earlier]
    exact .already earlier
  · obtain ⟨c, hc⟩ := fired.resolve_left earlier
    obtain rfl : now = c := le_antisymm (h.not_missed c hc) (recent c hc)
    exact .cut earlier ⟨hc, h.not_missed⟩ h.not_late

/-- A timer that has fired ends a wait in time. -/
theorem InTime.slept {e : Nat} (h : InTime now t (some e) before cancels) (up : ¬ before)
    (begun : t ≤ now) (due : tick e ≤ now) : Outcome t (some e) before cancels now true := by
  obtain rfl : max t (tick e) = now := le_antisymm (max_le begun due) (h.not_late e rfl)
  exact .slept up rfl h.not_missed

/-! ### What a wait keeps -/

/-- What holds of a wait that began at `t`. -/
def Keeps (now t : Nat) (before : Prop) (cancels : Set Nat) (w : Wait) : Prop :=
  t ≤ now ∧
    match w.phase with
    | .called => InTime now t w.deadline before cancels ∧ now = t
    | .racing | .subscribed =>
        InTime now t w.deadline before cancels ∧ now = t ∧ (w.deadline.isSome → ¬ before)
    | .watching seen => InTime now t w.deadline before cancels ∧ seen = 0 ∧ ¬ before
    | .ended e slept => e ≤ now ∧ Outcome t w.deadline before cancels e slept

variable {d : TokenDesk} {w : Wait} {p : Phase}

theorem Keeps.mono (h : Keeps now t before cancels w) (sub : cancels ⊆ more)
    (new : ∀ c ∈ more, c ∈ cancels ∨ c = now) : Keeps now t before more w := by
  obtain ⟨begun, h⟩ := h
  refine ⟨begun, ?_⟩
  rcases phase : w.phase <;> rw [phase] at h
  case called | racing | subscribed | watching => exact ⟨h.1.mono new, h.2⟩
  case ended => exact ⟨h.1, h.2.mono h.1 sub new⟩

theorem Keeps.outcome {e : Nat} {slept : Bool} (h : Keeps now t before cancels w)
    (phase : w.phase = .ended e slept) : Outcome t w.deadline before cancels e slept := by
  obtain ⟨-, h⟩ := h
  rw [phase] at h
  exact h.2

theorem Keeps.inTime (h : Keeps now t before cancels w) (going : w.hasEnded = false) :
    InTime now t w.deadline before cancels := by
  obtain ⟨-, h⟩ := h
  rcases phase : w.phase <;> rw [phase] at h <;> rw [hasEnded, phase] at going
  case called | racing | subscribed | watching => exact h.1
  case ended => cases going

/-- A call begins in time. -/
theorem keeps_start (token t : Nat) (deadline : Option Nat) (before : Prop) :
    Keeps t t before ∅ (.start token deadline) := by
  have inTime : InTime t t deadline before ∅ := ⟨fun _ => rfl, nofun, fun e _ => le_max_left _ _⟩
  cases deadline with
  | none => exact ⟨Nat.le_refl _, inTime, rfl, nofun⟩
  | some e => exact ⟨Nat.le_refl _, inTime, rfl⟩

/-- The way on by the timer, which several phases have in common. -/
theorem InTime.timeout (h : InTime d.now t w.deadline before cancels)
    (up : w.deadline.isSome → ¬ before) (begun : t ≤ d.now) (due : p ∈ w.timeout d) :
    p = .ended d.now true ∧ Outcome t w.deadline before cancels d.now true := by
  obtain ⟨rfl, e, some, due⟩ := mem_timeout.1 due
  rw [some] at h up ⊢
  exact ⟨rfl, h.slept (up rfl) begun due⟩

/-- And the way on by the flag. -/
theorem InTime.read (h : InTime d.now t w.deadline before cancels)
    (fired : d.isFired w.token = true ↔ before ∨ cancels.Nonempty)
    (recent : ∀ c ∈ cancels, c ≤ d.now) :
    (w.read d = .watching (d.version w.token) ∧ d.isFired w.token = false) ∨
      w.read d = .ended d.now false ∧ Outcome t w.deadline before cancels d.now false := by
  rw [Wait.read]
  cases up : d.isFired w.token with
  | false => exact .inl ⟨rfl, rfl⟩
  | true => exact .inr ⟨rfl, h.cut (fired.1 up) recent⟩

/-- A turn keeps what holds of a wait. -/
theorem Keeps.next (h : Keeps d.now t before cancels w)
    (fired : d.isFired w.token = true ↔ before ∨ cancels.Nonempty)
    (recent : ∀ c ∈ cancels, c ≤ d.now) (turn : p ∈ w.next d) :
    Keeps d.now t before cancels { w with phase := p } := by
  obtain ⟨begun, h⟩ := h
  refine ⟨begun, ?_⟩
  have down : d.isFired w.token = false → ¬ before := fun eq earlier =>
    absurd (fired.2 (.inl earlier)) (by rw [eq]; exact Bool.false_ne_true)
  rcases phase : w.phase <;> rw [phase] at h <;> rw [Wait.next, phase] at turn
  case called =>
    rcases up : d.isFired w.token <;> rw [up] at turn <;> cases List.mem_singleton.1 turn
    · exact ⟨h.1, h.2, fun _ => down up⟩
    · exact ⟨Nat.le_refl _, h.1.cut (fired.1 up) recent⟩
  case racing =>
    rcases List.mem_cons.1 turn with rfl | due
    · exact h
    · obtain ⟨rfl, outcome⟩ := h.1.timeout h.2.2 begun due
      exact ⟨Nat.le_refl _, outcome⟩
  case subscribed =>
    rcases List.mem_cons.1 turn with rfl | due
    · rcases h.1.read fired recent with ⟨read, up⟩ | ⟨read, outcome⟩ <;> rw [read]
      · exact ⟨h.1, version_eq_zero_iff.2 up, down up⟩
      · exact ⟨Nat.le_refl _, outcome⟩
    · obtain ⟨rfl, outcome⟩ := h.1.timeout h.2.2 begun due
      exact ⟨Nat.le_refl _, outcome⟩
  case watching seen =>
    obtain ⟨inTime, rfl, up⟩ := h
    rcases List.mem_append.1 turn with found | due
    · split at found
      · cases found
      · obtain rfl := List.mem_singleton.1 found
        rcases inTime.read fired recent with ⟨read, up'⟩ | ⟨read, outcome⟩ <;> rw [read]
        · exact ⟨inTime, version_eq_zero_iff.2 up', up⟩
        · exact ⟨Nat.le_refl _, outcome⟩
    · obtain ⟨rfl, outcome⟩ := inTime.timeout (fun _ => up) begun due
      exact ⟨Nat.le_refl _, outcome⟩
  case ended => cases turn

/-- A wait that cannot go on is over, or watches a flag that is down. -/
theorem Keeps.of_next_eq_nil (h : Keeps now t before cancels w) (stuck : w.next d = []) :
    w.hasEnded = true ∨ w.phase = .watching 0 ∧ d.isFired w.token = false ∧
      ∀ e ∈ w.deadline, d.now < tick e := by
  rcases phase : w.phase <;> rw [Wait.next, phase] at stuck
  case called => cases stuck
  case racing => cases stuck
  case subscribed => cases stuck
  case watching seen =>
    obtain ⟨-, h⟩ := h
    rw [phase] at h
    obtain ⟨-, rfl, -⟩ := h
    obtain ⟨same, timeout⟩ := List.append_eq_nil_iff.1 stuck
    refine .inr ⟨rfl, version_eq_zero_iff.1 ?_, fun e he => Nat.lt_of_not_le fun due => ?_⟩
    · split at same
      case isTrue eq => exact eq.symm
      case isFalse => cases same
    · have way : Phase.ended d.now true ∈ w.timeout d := mem_timeout.2 ⟨rfl, e, he, due⟩
      rw [timeout] at way
      cases way
  case ended => exact .inl (by rw [hasEnded, phase])

/-- How many turns a wait may take yet, at most. -/
def Phase.turns : Phase → Nat
  | .called => 4
  | .racing => 3
  | .subscribed => 2
  | .watching _ => 1
  | .ended _ _ => 0

/-- Each turn brings a wait nearer to its end. -/
theorem Keeps.turns_lt (h : Keeps now t before cancels w) (turn : p ∈ w.next d) :
    p.turns < w.phase.turns := by
  have timeout : p ∈ w.timeout d → p.turns = 0 := fun due => by
    rw [(mem_timeout.1 due).1, Phase.turns]
  have read : (w.read d).turns ≤ 1 := by
    rw [Wait.read]
    split <;> simp [Phase.turns]
  rcases phase : w.phase <;> rw [Wait.next, phase] at turn
  case called =>
    cases List.mem_singleton.1 turn
    split <;> simp [Phase.turns]
  case racing =>
    rcases List.mem_cons.1 turn with rfl | due
    · decide
    · rw [timeout due]
      decide
  case subscribed =>
    rcases List.mem_cons.1 turn with rfl | due
    · exact Nat.lt_succ_of_le read
    · rw [timeout due]
      decide
  case watching seen =>
    rcases List.mem_append.1 turn with found | due
    · obtain ⟨-, h⟩ := h
      rw [phase] at h
      obtain ⟨-, rfl, -⟩ := h
      split at found
      · cases found
      case isFalse raised =>
        -- the version that is read is another than the first, so that the flag is up
        obtain rfl := List.mem_singleton.1 found
        have up : d.isFired w.token = true := by
          rw [← Bool.not_eq_false, ← version_eq_zero_iff]
          exact fun eq => raised eq.symm
        rw [Wait.read, if_pos up]
        exact Nat.zero_lt_one
    · rw [timeout due]
      exact Nat.zero_lt_one
  case ended => cases turn

/-- Time passes by a wait that cannot go on. -/
theorem Keeps.pass {later : Nat} (h : Keeps d.now t before cancels w)
    (fired : d.isFired w.token = true ↔ before ∨ cancels.Nonempty)
    (stuck : w.next d = []) (after : d.now < later)
    (deadlines : w.hasEnded = false → ∀ e ∈ w.deadline, later ≤ tick e) :
    Keeps later t before cancels w := by
  refine ⟨h.1.trans after.le, ?_⟩
  rcases h.of_next_eq_nil stuck with ended | ⟨watching, down, -⟩
  · obtain ⟨-, h⟩ := h
    obtain ⟨_, _, phase⟩ := hasEnded_iff.1 ended
    rw [phase] at h ⊢
    exact ⟨h.1.trans after.le, h.2⟩
  · obtain ⟨-, h⟩ := h
    rw [watching] at h ⊢
    have none : ¬ (before ∨ cancels.Nonempty) := fun up => by
      rw [fired.2 up] at down
      cases down
    refine ⟨⟨fun earlier => absurd (.inl earlier) none, fun c hc => absurd (.inr ⟨c, hc⟩) none,
      fun e he => ?_⟩, h.2⟩
    exact (deadlines (by rw [hasEnded, watching]) e he).trans (le_max_right _ _)

end Wait

namespace WaitingRoom

variable {log : List Entry} {s s' : WaitingRoom} {m : Move}

/-! ### Waits in a run -/

/-- A step keeps what holds of a wait, before what the step itself raises is counted. -/
theorem Step.keeps (step : Step s m s') {t i : Nat} {before : Prop} {cancels : Set Nat} {w : Wait}
    (found : s.waits[i]? = some w) (h : w.Keeps s.desk.now t before cancels)
    (fired : s.desk.isFired w.token = true ↔ before ∨ cancels.Nonempty)
    (recent : ∀ c ∈ cancels, c ≤ s.desk.now) :
    ∃ w', s'.waits[i]? = some w' ∧ w'.token = w.token ∧ w'.deadline = w.deadline ∧
      w'.Keeps s'.desk.now t before cancels := by
  cases step with
  | @act _ token a prompt owned =>
      exact ⟨w, found, rfl, rfl, by rwa [now_act s.desk token prompt]⟩
  | call k owned =>
      refine ⟨w, ?_, rfl, rfl, h⟩
      rw [List.getElem?_append_left (List.getElem?_eq_some_iff.1 found).1]
      exact found
  | @turn j v p found' turn =>
      by_cases own : j = i
      · subst own
        obtain rfl : v = w := Option.some.inj (found'.symm.trans found)
        refine ⟨{ v with phase := p }, ?_, rfl, rfl, h.next fired recent turn⟩
        rw [List.getElem?_set_self (List.getElem?_eq_some_iff.1 found).1]
      · exact ⟨w, (List.getElem?_set_ne own).trans found, rfl, rfl, h⟩
  | pass after stuck deadlines =>
      have wait := List.mem_of_getElem? found
      exact ⟨w, found, rfl, rfl, h.pass fired (stuck w wait) after (deadlines w wait)⟩

/-- The wait that a call in a log has begun. -/
def HasWait (s : WaitingRoom) (t h : Nat) (k : WaitKind) (i : Nat)
    (earlier later : List Entry) : Prop :=
  ∃ w, s.waits[i]? = some w ∧ s.desk.handles[h]? = some w.token ∧ w.deadline = k.deadline t ∧
    w.Keeps s.desk.now t (raisings s.desk.handles earlier w.token).Nonempty
      (raisings s.desk.handles later w.token)

/-- Actions take no time. -/
theorem Step.now_of_act {h : Nat} {a : Action} {r : Result} (step : Step s (.act h a r) s') :
    s'.desk.now = s.desk.now := by
  cases step with
  | act prompt => exact now_act s.desk _ prompt

theorem raisings_append (handles : List Nat) (entries entries' : List Entry) (x : Nat) :
    raisings handles (entries ++ entries') x =
      raisings handles entries x ∪ raisings handles entries' x := by
  ext c
  constructor
  · rintro ⟨h, r, he, token⟩
    exact (List.mem_append.1 he).imp (fun he => ⟨h, r, he, token⟩) fun he => ⟨h, r, he, token⟩
  · rintro (⟨h, r, he, token⟩ | ⟨h, r, he, token⟩)
    · exact ⟨h, r, List.mem_append_left _ he, token⟩
    · exact ⟨h, r, List.mem_append_right _ he, token⟩

/-- A call raises no flag. -/
theorem raisings_cons_call (handles : List Nat) (t h i : Nat) (k : WaitKind)
    (entries : List Entry) (x : Nat) :
    raisings handles (⟨t, .call h k i⟩ :: entries) x = raisings handles entries x := by
  ext c
  refine exists_congr fun h => exists_congr fun r => and_congr_left fun _ => ?_
  exact List.mem_cons.trans (or_iff_right (by rintro ⟨⟩))

/-- A call begins its wait. -/
theorem hasWait_of_call {h i : Nat} {k : WaitKind} (earlier : List Entry)
    (step : Step s (.call h k i) s') : HasWait s' s.desk.now h k i earlier [] := by
  cases step with
  | @call _ token _ owned =>
      refine ⟨_, List.getElem?_concat_length, owned, rfl, ?_⟩
      have none : raisings s.desk.handles [] token = ∅ :=
        Set.eq_empty_of_forall_notMem fun c ⟨_, _, he, _⟩ => nomatch he
      rw [show raisings s.desk.handles [] (Wait.start _ _).token = ∅ from none]
      exact Wait.keeps_start _ _ _ _

/-- A call has its wait when another step is done. -/
theorem HasWait.step {t h i : Nat} {k : WaitKind} {earlier later : List Entry}
    (described : Describes (earlier ++ ⟨t, .call h k i⟩ :: later) s.desk)
    (wait : HasWait s t h k i earlier later) (step : Step s m s') :
    HasWait s' t h k i earlier (later ++ [⟨s.desk.now, m⟩]) := by
  obtain ⟨w, found, owned, deadline, keeps⟩ := wait
  have fired := described.isFired_iff w.token
  rw [raisings_append, raisings_cons_call, Set.union_nonempty] at fired
  have recent : ∀ c ∈ raisings s.desk.handles later w.token, c ≤ s.desk.now :=
    fun c ⟨h, r, he, _⟩ => described.instant_le ⟨c, .act h .cancel r⟩
      (List.mem_append_right _ (List.mem_cons_of_mem _ he))
  obtain ⟨w', found', token, deadline', keeps'⟩ := step.keeps found keeps fired recent
  obtain ⟨more, tells⟩ := step.exists_tells described.token_lt
  have known : ∀ t h a r, (⟨t, .act h a r⟩ : Entry) ∈ later ++ [⟨s.desk.now, m⟩] →
      h < s.desk.handles.length := fun t h a r he =>
    described.owned_concat tells t h a r <| (List.mem_append.1 he).elim
      (fun he => List.mem_append_left _ (List.mem_append_right _ (List.mem_cons_of_mem _ he)))
      (List.mem_append_right _)
  refine ⟨w', found', ?_, deadline'.trans deadline, ?_⟩
  · rw [tells.handles, token]
    exact getElem?_append_of_eq_some owned more
  · rw [token, tells.handles, raisings_append_handles known, raisings_append_handles
      fun t h a r he => described.owned t h a r (List.mem_append_left _ he)]
    refine keeps'.mono (fun c hc => mem_raisings_concat.2 (.inl hc)) fun c hc => ?_
    rcases mem_raisings_concat.1 hc with hc | ⟨rfl, h, r, rfl, -⟩
    · exact .inl hc
    · exact .inr step.now_of_act.symm

/-- Every call has its wait. -/
theorem hasWait_of_run (run : Run log s) : ∀ earlier t h k i later,
    log = earlier ++ ⟨t, .call h k i⟩ :: later → HasWait s t h k i earlier later := by
  induction run with
  | start =>
      intro earlier t h k i later eq
      exact absurd eq.symm (List.append_ne_nil_of_right_ne_nil _ (List.cons_ne_nil _ _))
  | @step log s s' m run step ih =>
      intro earlier t h k i later eq
      rcases later.eq_nil_or_concat with rfl | ⟨later, e, rfl⟩
      · -- the call has just been made
        obtain ⟨rfl, last⟩ := List.append_inj' eq rfl
        obtain ⟨⟨rfl, rfl⟩, -⟩ := List.cons.inj last
        exact hasWait_of_call log step
      · -- the call was made before, and the last step is among those that came since
        rw [List.concat_eq_append, ← List.cons_append, ← List.append_assoc] at eq
        obtain ⟨rfl, last⟩ := List.append_inj' eq rfl
        obtain ⟨rfl, -⟩ := List.cons.inj last
        rw [List.concat_eq_append]
        exact (ih _ _ _ _ _ _ rfl).step (describes_of_run run) step

/-- Every wait was begun by a call. -/
theorem exists_call (run : Run log s) : ∀ i < s.waits.length,
    ∃ earlier t h k later, log = earlier ++ ⟨t, .call h k i⟩ :: later := by
  induction run with
  | start => exact fun i hi => absurd hi (Nat.not_lt_zero i)
  | @step log s s' m run step ih =>
      have old : ∀ i < s.waits.length,
          ∃ earlier t h k later,
            log ++ [⟨s.desk.now, m⟩] = earlier ++ ⟨t, .call h k i⟩ :: later := by
        intro i hi
        obtain ⟨earlier, t, h, k, later, rfl⟩ := ih i hi
        exact ⟨earlier, t, h, k, later ++ [⟨s.desk.now, m⟩], by rw [List.append_assoc]; rfl⟩
      intro i hi
      cases step with
      | act | pass => exact old i hi
      | turn => exact old i (by rwa [List.length_set] at hi)
      | @call h _ k =>
          rw [List.length_append, List.length_singleton] at hi
          rcases Nat.lt_succ_iff_lt_or_eq.1 hi with hi | rfl
          · exact old i hi
          · exact ⟨log, s.desk.now, h, k, [], rfl⟩

/-- Every wait keeps what holds of waits. -/
theorem exists_keeps (run : Run log s) {i : Nat} {w : Wait} (found : s.waits[i]? = some w) :
    ∃ t before cancels, w.Keeps s.desk.now t before cancels := by
  obtain ⟨earlier, t, h, k, later, eq⟩ := exists_call run i (List.getElem?_eq_some_iff.1 found).1
  obtain ⟨w', found', -, -, keeps⟩ := hasWait_of_run run earlier t h k i later eq
  rw [Option.some.inj (found.symm.trans found')]
  exact ⟨t, _, _, keeps⟩

/-! ### Progress -/

/-- How many turns the waits may take yet, at most. -/
def turns (s : WaitingRoom) : Nat := s.waits.foldr (fun w n => w.phase.turns + n) 0

/-- A wait that comes nearer to its end brings the room nearer to rest. -/
theorem turns_set_lt {ws : List Wait} {i : Nat} {w w' : Wait} (found : ws[i]? = some w)
    (less : w'.phase.turns < w.phase.turns) :
    (ws.set i w').foldr (fun w n => w.phase.turns + n) 0 <
      ws.foldr (fun w n => w.phase.turns + n) 0 := by
  induction ws generalizing i with
  | nil => cases found
  | cons v ws ih =>
      cases i with
      | zero =>
          cases found
          rw [List.set_cons_zero, List.foldr_cons, List.foldr_cons]
          exact Nat.add_lt_add_right less _
      | succ i =>
          rw [List.set_cons_succ, List.foldr_cons, List.foldr_cons]
          exact Nat.add_lt_add_left (ih found) _

/-- What waits do without the help of others. -/
def Move.isOfWaits : Move → Bool
  | turn _ | pass _ => true
  | act _ _ _ | call _ _ _ => false

/-- Nobody waits but for a flag that is down and without a deadline. -/
def IsAtRest (s : WaitingRoom) : Prop :=
  ∀ w ∈ s.waits, w.hasEnded = true ∨ w.deadline = none ∧ s.desk.isFired w.token = false

/-- When no wait can go on, those that have not ended watch, and their timers are still to
fire. -/
theorem watching_of_stuck (run : Run log s) (stuck : ∀ w ∈ s.waits, w.next s.desk = [])
    {w : Wait} (hw : w ∈ s.waits) (going : w.hasEnded = false) :
    w.phase = .watching 0 ∧ s.desk.isFired w.token = false ∧
      ∀ e ∈ w.deadline, s.desk.now < tick e := by
  obtain ⟨i, found⟩ := List.getElem?_of_mem hw
  obtain ⟨t, before, cancels, keeps⟩ := exists_keeps run found
  exact (keeps.of_next_eq_nil (stuck w hw)).resolve_left (by rw [going]; exact Bool.false_ne_true)

/-- Then one of these timers is the first to fire, unless the room is at rest. -/
theorem exists_first_timer (run : Run log s) (busy : ¬ s.IsAtRest)
    (stuck : ∀ w ∈ s.waits, w.next s.desk = []) :
    ∃ w ∈ s.waits, w.hasEnded = false ∧ ∃ e ∈ w.deadline,
      ∀ v ∈ s.waits, v.hasEnded = false → ∀ f ∈ v.deadline, tick e ≤ tick f := by
  have timed : ∃ T, ∃ w ∈ s.waits, w.hasEnded = false ∧ ∃ e ∈ w.deadline, tick e = T := by
    obtain ⟨w, hw, waits⟩ : ∃ w ∈ s.waits,
        ¬ (w.hasEnded = true ∨ w.deadline = none ∧ s.desk.isFired w.token = false) := by
      simpa only [IsAtRest, not_forall, exists_prop] using busy
    obtain ⟨going, endless⟩ := not_or.1 waits
    have going := Bool.eq_false_iff.2 going
    obtain ⟨e, he⟩ := Option.ne_none_iff_exists'.1 fun none =>
      endless ⟨none, (watching_of_stuck run stuck hw going).2.1⟩
    exact ⟨tick e, w, hw, going, e, he, rfl⟩
  classical
  obtain ⟨w, hw, going, e, he, first⟩ := Nat.find_spec timed
  refine ⟨w, hw, going, e, he, fun v hv going f hf => ?_⟩
  rw [first]
  exact Nat.find_min' timed ⟨v, hv, going, f, hf, rfl⟩

/-- A room that is not at rest has a wait that can go on, or else time can pass to where one
can. -/
theorem exists_turn (run : Run log s) (busy : ¬ s.IsAtRest) :
    ∃ more s', Run (log ++ more) s' ∧ (∀ e ∈ more, e.move.isOfWaits = true) ∧
      s'.turns < s.turns := by
  by_cases stuck : ∀ w ∈ s.waits, w.next s.desk = []
  · obtain ⟨w, hw, going, e, he, least⟩ := exists_first_timer run busy stuck
    obtain ⟨phase, -, early⟩ := watching_of_stuck run stuck hw going
    obtain ⟨i, found⟩ := List.getElem?_of_mem hw
    -- the clock jumps to the first timer, and its wait ends
    have passed := run.step (.pass (early e he) stuck least)
    have turn : Wait.Phase.ended (tick e) true ∈ w.next { s.desk with now := tick e } := by
      rw [Wait.next, phase]
      exact List.mem_append_right _ (Wait.mem_timeout.2 ⟨rfl, e, he, Nat.le_refl _⟩)
    have turned := Run.step passed (Step.turn found turn)
    rw [List.append_assoc] at turned
    refine ⟨_, _, turned, ?_, turns_set_lt found ?_⟩
    · exact List.forall_mem_cons.2 ⟨rfl, List.forall_mem_singleton.2 rfl⟩
    · rw [phase]
      exact Nat.zero_lt_one
  · -- some wait can go on as it is
    simp only [not_forall, exists_prop] at stuck
    obtain ⟨w, hw, way⟩ := stuck
    obtain ⟨i, found⟩ := List.getElem?_of_mem hw
    obtain ⟨p, turn⟩ := List.exists_mem_of_ne_nil _ way
    obtain ⟨t, before, cancels, keeps⟩ := exists_keeps run found
    refine ⟨[⟨s.desk.now, .turn i⟩], _, .step run (.turn found turn), ?_, ?_⟩
    · exact List.forall_mem_singleton.2 rfl
    · exact turns_set_lt found (keeps.turns_lt turn)

/-- The waits of a room can come to rest by themselves. -/
theorem exists_rest (run : Run log s) :
    ∃ more s', Run (log ++ more) s' ∧ (∀ e ∈ more, e.move.isOfWaits = true) ∧ s'.IsAtRest := by
  obtain ⟨n, hn⟩ : ∃ n, s.turns = n := ⟨_, rfl⟩
  induction n using Nat.strong_induction_on generalizing log s with
  | _ n ih =>
      by_cases rest : s.IsAtRest
      · exact ⟨[], s, by rwa [List.append_nil], nofun, rest⟩
      · obtain ⟨front, s', run', own, less⟩ := exists_turn run rest
        obtain ⟨back, s'', run'', own', rest'⟩ := ih _ (hn ▸ less) run' rfl
        exact ⟨front ++ back, s'', by rwa [← List.append_assoc],
          List.forall_mem_append.2 ⟨own, own'⟩, rest'⟩

end WaitingRoom

end SongSheet
