/-
SongSheet/Proofs/Token/WaitingRoom.lean

Many waits at once.

A desk serves one caller, who waits until a wait is over.  In a waiting room any number of
waits go on over one desk, each by turns of its own: it looks at the flag, takes a receiver,
reads the flag through it, and from then on it goes on only when the flag was raised since.
Anything may happen between two turns of a wait, so that a flag can go up between the look and
the receiver, or between the receiver and the reading.  Time passes when no wait can go on, and
never beyond the deadline of one.

What has happened is kept in a log (`Run`).  Handles have the same token just if one comes from
the other by cloning (`akin_iff`), and a handle reads that it is cancelled just if the log has a
cancellation of one that is akin to it (`isCancelled_iff`).
-/
import SongSheet.TokenDesk
import Mathlib.Logic.Relation
import Mathlib.Order.Bounds.Basic

namespace SongSheet

open Clock

namespace TokenDesk

/-- The actions that take no time. -/
def Action.isPrompt : Action → Bool
  | .new | .clone | .cancel | .isCancelled => true
  | .sleep _ | .sleepUntil _ | .cancelIn _ | .awaitCancel _ => false

theorem now_act (d : TokenDesk) (token : Nat) {a : Action} (prompt : a.isPrompt = true) :
    (d.act token a).1.now = d.now := by
  cases a with
  | new | clone | cancel | isCancelled => rfl
  | sleep | sleepUntil | cancelIn | awaitCancel => cases prompt

/-- How often a flag was raised. -/
def version (d : TokenDesk) (token : Nat) : Nat := d.fired.count token

theorem version_eq_zero_iff {d : TokenDesk} {token : Nat} :
    d.version token = 0 ↔ d.isFired token = false := by
  rw [version, List.count_eq_zero, isFired, ← Bool.not_eq_true, List.contains_iff_mem]

end TokenDesk

/-! ### Waits -/

/-- The calls that wait. -/
inductive WaitKind where
  | sleep (length : Nat)
  | sleepUntil (instant : Nat)
  /-- Waits for the flag only. -/
  | cancelled
  deriving DecidableEq, Repr

/-- How long a call waits at most. -/
def WaitKind.deadline (now : Nat) : WaitKind → Option Nat
  | sleep length => some (now + length)
  | sleepUntil instant => some instant
  | cancelled => none

/-- How far a wait has come. -/
inductive Wait.Phase where
  /-- The flag has not been looked at. -/
  | called
  /-- The timer and the flag are to be waited for. -/
  | racing
  /-- There is a receiver, which has not read the flag. -/
  | subscribed
  /-- The receiver found the flag down when it had been raised so often. -/
  | watching (seen : Nat)
  /-- Over, at an instant; a wait that is not cut short has slept. -/
  | ended (instant : Nat) (slept : Bool)
  deriving DecidableEq, Repr

/-- A call that waits with a token. -/
structure Wait where
  token : Nat
  deadline : Option Nat
  phase : Wait.Phase
  deriving DecidableEq, Repr

namespace Wait

open TokenDesk

variable {d : TokenDesk} {w : Wait}

/-- A call that begins; only one with a deadline looks at the flag first. -/
def start (token : Nat) (deadline : Option Nat) : Wait :=
  ⟨token, deadline, if deadline.isSome then .called else .racing⟩

def hasEnded (w : Wait) : Bool :=
  match w.phase with
  | .ended _ _ => true
  | _ => false

theorem hasEnded_iff : w.hasEnded = true ↔ ∃ e slept, w.phase = .ended e slept := by
  rw [hasEnded]
  constructor
  · intro h
    split at h
    case h_1 e slept phase => exact ⟨e, slept, phase⟩
    case h_2 => cases h
  · rintro ⟨e, slept, phase⟩
    rw [phase]

/-- The way on by the timer, once that has fired. -/
def timeout (d : TokenDesk) (w : Wait) : List Phase :=
  if w.deadline.any (tick · ≤ d.now) then [.ended d.now true] else []

/-- The way on by reading the flag. -/
def read (d : TokenDesk) (w : Wait) : Phase :=
  if d.isFired w.token then .ended d.now false else .watching (d.version w.token)

/-- The ways in which a wait can go on. -/
def next (d : TokenDesk) (w : Wait) : List Phase :=
  match w.phase with
  | .called => [if d.isFired w.token then .ended d.now false else .racing]
  | .racing => .subscribed :: w.timeout d
  | .subscribed => w.read d :: w.timeout d
  | .watching seen => (if seen = d.version w.token then [] else [w.read d]) ++ w.timeout d
  | .ended _ _ => []

theorem mem_timeout {p : Phase} :
    p ∈ w.timeout d ↔ p = .ended d.now true ∧ ∃ e, w.deadline = some e ∧ tick e ≤ d.now := by
  rw [timeout]
  rcases w.deadline with - | e
  · exact ⟨nofun, fun ⟨_, e, deadline, _⟩ => nomatch deadline⟩
  · rw [Option.any_some]
    by_cases due : tick e ≤ d.now
    · rw [if_pos (decide_eq_true due), List.mem_singleton]
      exact ⟨fun eq => ⟨eq, e, rfl, due⟩, And.left⟩
    · rw [if_neg (mt of_decide_eq_true due)]
      refine ⟨nofun, ?_⟩
      rintro ⟨-, _, ⟨⟩, due'⟩
      exact absurd due' due

/-- A receiver that saw the flag down goes on once it is up. -/
theorem ended_mem_next (phase : w.phase = .watching 0) (up : d.isFired w.token = true) :
    .ended d.now false ∈ w.next d := by
  have raised : 0 ≠ d.version w.token := fun eq => by
    rw [version_eq_zero_iff.1 eq.symm] at up
    cases up
  rw [next, phase]
  dsimp only
  rw [if_neg raised, read, if_pos up]
  exact List.mem_cons_self

end Wait

/-! ### Rooms -/

/-- A desk and the waits over it. -/
structure WaitingRoom where
  desk : TokenDesk
  waits : List Wait
  deriving DecidableEq, Repr

namespace WaitingRoom

open TokenDesk

/-- One token, and nobody who waits. -/
def initial : WaitingRoom := ⟨.initial, []⟩

/-- What can happen in a room. -/
inductive Move where
  /-- An action with a handle, and what comes of it. -/
  | act (handle : Nat) (a : Action) (r : Result)
  /-- A call with a handle that begins a wait. -/
  | call (handle : Nat) (k : WaitKind) (wait : Nat)
  /-- A turn of a wait. -/
  | turn (wait : Nat)
  | pass (instant : Nat)
  deriving DecidableEq, Repr

/-- What happens from one moment to the next. -/
inductive Step (s : WaitingRoom) : Move → WaitingRoom → Prop
  | act {handle token : Nat} {a : Action} : a.isPrompt = true →
      s.desk.handles[handle]? = some token →
      Step s (.act handle a (s.desk.act token a).2) { s with desk := (s.desk.act token a).1 }
  | call {handle token : Nat} (k : WaitKind) : s.desk.handles[handle]? = some token →
      Step s (.call handle k s.waits.length)
        { s with waits := s.waits ++ [.start token (k.deadline s.desk.now)] }
  | turn {i : Nat} {w : Wait} {p : Wait.Phase} : s.waits[i]? = some w → p ∈ w.next s.desk →
      Step s (.turn i) { s with waits := s.waits.set i { w with phase := p } }
  | pass {later : Nat} : s.desk.now < later → (∀ w ∈ s.waits, w.next s.desk = []) →
      (∀ w ∈ s.waits, w.hasEnded = false → ∀ e ∈ w.deadline, later ≤ tick e) →
      Step s (.pass later) { s with desk := { s.desk with now := later } }

/-- A move and its instant. -/
structure Entry where
  instant : Nat
  move : Move
  deriving DecidableEq, Repr

/-- What can have happened, oldest first, and the room that it leads to. -/
inductive Run : List Entry → WaitingRoom → Prop
  | start : Run [] initial
  | step {log : List Entry} {s s' : WaitingRoom} {m : Move} :
      Run log s → Step s m s' → Run (log ++ [⟨s.desk.now, m⟩]) s'

/-! ### Handles and flags -/

/-- A handle was made by cloning another. -/
def Cloned (log : List Entry) (i j : Nat) : Prop := ∃ t, ⟨t, .act i .clone (.handle j)⟩ ∈ log

/-- Handles that come from one another by cloning. -/
abbrev Akin (log : List Entry) : Nat → Nat → Prop := Relation.EqvGen (Cloned log)

/-- The instants at which entries have a cancellation through a handle of a token. -/
def raisings (handles : List Nat) (entries : List Entry) (token : Nat) : Set Nat :=
  {c | ∃ h r, ⟨c, .act h .cancel r⟩ ∈ entries ∧ handles[h]? = some token}

/-- The instants at which entries have a cancellation through a handle that is akin to one. -/
def cancels (log entries : List Entry) (handle : Nat) : Set Nat :=
  {c | ∃ h r, ⟨c, .act h .cancel r⟩ ∈ entries ∧ Akin log handle h}

theorem Akin.mono {log more : List Entry} {i j : Nat} (akin : Akin log i j) :
    Akin (log ++ more) i j :=
  Relation.EqvGen.mono (r := Cloned log)
    (fun _ _ ⟨t, ht⟩ => ⟨t, List.mem_append_left _ ht⟩) _ _ akin

/-- What is raised is told by a log if its handles are known. -/
theorem raisings_append_handles {handles more : List Nat} {entries : List Entry} {x : Nat}
    (owned : ∀ t h a r, ⟨t, .act h a r⟩ ∈ entries → h < handles.length) :
    raisings (handles ++ more) entries x = raisings handles entries x := by
  ext c
  refine exists_congr fun h => exists_congr fun r => and_congr_right fun he => ?_
  rw [List.getElem?_append_left (owned _ _ _ _ he)]

theorem mem_raisings_concat {handles : List Nat} {entries : List Entry} {e : Entry} {x c : Nat} :
    c ∈ raisings handles (entries ++ [e]) x ↔ c ∈ raisings handles entries x ∨
      e.instant = c ∧ ∃ h r, e.move = .act h .cancel r ∧ handles[h]? = some x := by
  constructor
  · rintro ⟨h, r, he, token⟩
    rcases List.mem_append.1 he with he | he
    · exact .inl ⟨h, r, he, token⟩
    · cases List.mem_singleton.1 he
      exact .inr ⟨rfl, h, r, rfl, token⟩
  · rintro (⟨h, r, he, token⟩ | ⟨rfl, h, r, move, token⟩)
    · exact ⟨h, r, List.mem_append_left _ he, token⟩
    · exact ⟨h, r, List.mem_append_right _ (by rw [← move]; exact List.mem_singleton_self e), token⟩

/-- How a log describes a desk. -/
structure Describes (log : List Entry) (d : TokenDesk) : Prop where
  token_lt : ∀ x ∈ d.handles, x < d.tokens
  instant_le : ∀ e ∈ log, e.instant ≤ d.now
  owned : ∀ t h a r, ⟨t, .act h a r⟩ ∈ log → h < d.handles.length
  isFired_iff : ∀ x, d.isFired x = true ↔ (raisings d.handles log x).Nonempty
  of_cloned : ∀ i j, Cloned log i j → ∃ x, d.handles[i]? = some x ∧ d.handles[j]? = some x
  akin : ∀ i j x : Nat, d.handles[i]? = some x → d.handles[j]? = some x → Akin log i j

/-- How an entry describes what becomes of a desk. -/
structure Tells (e : Entry) (d d' : TokenDesk) (more : List Nat) : Prop where
  instant : e.instant = d.now
  now_le : d.now ≤ d'.now
  handles : d'.handles = d.handles ++ more
  tokens_le : d.tokens ≤ d'.tokens
  token_lt : ∀ x ∈ more, x < d'.tokens
  owned : ∀ h a r, e.move = .act h a r → h < d.handles.length
  isFired_iff : ∀ x, d'.isFired x = true ↔ d.isFired x = true ∨
    ∃ h r, e.move = .act h .cancel r ∧ d.handles[h]? = some x
  /-- A clone has the token that was cloned. -/
  of_cloned : ∀ i j, e.move = .act i .clone (.handle j) →
    ∃ x, d.handles[i]? = some x ∧ (d.handles ++ more)[j]? = some x
  /-- Another handle is of another token, or a clone. -/
  akin : ∀ j x : Nat, d.handles.length ≤ j → (d.handles ++ more)[j]? = some x →
    j = d.handles.length ∧
      (d.tokens ≤ x ∨ ∃ i, e.move = .act i .clone (.handle j) ∧ d.handles[i]? = some x)

theorem getElem?_append_of_eq_some {xs : List Nat} {i x : Nat} (h : xs[i]? = some x)
    (ys : List Nat) : (xs ++ ys)[i]? = some x :=
  (List.getElem?_append_left (List.getElem?_eq_some_iff.1 h).1).trans h

/-- An action is through a handle that there was. -/
theorem Describes.owned_concat {log : List Entry} {d d' : TokenDesk} {e : Entry}
    {more : List Nat} (h : Describes log d) (tells : Tells e d d' more) :
    ∀ t i a r, ⟨t, .act i a r⟩ ∈ log ++ [e] → i < d.handles.length := by
  intro t i a r he
  rcases List.mem_append.1 he with he | he
  · exact h.owned t i a r he
  · exact tells.owned i a r (by rw [← List.mem_singleton.1 he])

/-- A new handle is akin to all of its token, as it is a clone, or there are none. -/
theorem Describes.akin_new {log : List Entry} {d d' : TokenDesk} {e : Entry} {more : List Nat}
    (h : Describes log d) (tells : Tells e d d' more) {i j x : Nat} (old : i < d.handles.length)
    (new : d.handles.length ≤ j) (hi : (d.handles ++ more)[i]? = some x)
    (hj : (d.handles ++ more)[j]? = some x) : Akin (log ++ [e]) i j := by
  rw [List.getElem?_append_left old] at hi
  obtain ⟨-, later | ⟨k, clone, source⟩⟩ := tells.akin j x new hj
  · exact absurd (h.token_lt x (List.mem_of_getElem? hi)) (Nat.not_lt.2 later)
  · have edge : Cloned (log ++ [e]) k j :=
      ⟨e.instant, List.mem_append_right _ (by rw [← clone]; exact List.mem_singleton_self e)⟩
    exact (h.akin i k x hi source).mono.trans _ _ _ (.rel _ _ edge)

/-- A log goes on to describe a desk. -/
theorem Describes.concat {log : List Entry} {d d' : TokenDesk} {e : Entry} {more : List Nat}
    (h : Describes log d) (tells : Tells e d d' more) : Describes (log ++ [e]) d' where
  token_lt := by
    rw [tells.handles]
    exact List.forall_mem_append.2
      ⟨fun x hx => (h.token_lt x hx).trans_le tells.tokens_le, tells.token_lt⟩
  instant_le := List.forall_mem_append.2
    ⟨fun e he => (h.instant_le e he).trans tells.now_le,
      List.forall_mem_singleton.2 (tells.instant.le.trans tells.now_le)⟩
  owned t i a r he := by
    rw [tells.handles, List.length_append]
    exact Nat.lt_add_right _ (h.owned_concat tells t i a r he)
  isFired_iff x := by
    rw [tells.isFired_iff, h.isFired_iff, tells.handles,
      raisings_append_handles (h.owned_concat tells)]
    constructor
    · rintro (⟨c, hc⟩ | ⟨i, r, move, token⟩)
      · exact ⟨c, mem_raisings_concat.2 (.inl hc)⟩
      · exact ⟨e.instant, mem_raisings_concat.2 (.inr ⟨rfl, i, r, move, token⟩)⟩
    · rintro ⟨c, hc⟩
      rcases mem_raisings_concat.1 hc with hc | ⟨-, raised⟩
      · exact .inl ⟨c, hc⟩
      · exact .inr raised
  of_cloned i j := by
    rintro ⟨t, he⟩
    rw [tells.handles]
    rcases List.mem_append.1 he with he | he
    · obtain ⟨x, hi, hj⟩ := h.of_cloned i j ⟨t, he⟩
      exact ⟨x, getElem?_append_of_eq_some hi more, getElem?_append_of_eq_some hj more⟩
    · obtain ⟨x, hi, hj⟩ := tells.of_cloned i j (by rw [← List.mem_singleton.1 he])
      exact ⟨x, getElem?_append_of_eq_some hi more, hj⟩
  akin := by
    -- both handles are old, one of them is new, or both are the one new handle
    intro i j x hi hj
    rw [tells.handles] at hi hj
    rcases Nat.lt_or_ge i d.handles.length with old | new
    · rcases Nat.lt_or_ge j d.handles.length with old' | new'
      · rw [List.getElem?_append_left old] at hi
        rw [List.getElem?_append_left old'] at hj
        exact (h.akin i j x hi hj).mono
      · exact h.akin_new tells old new' hi hj
    · rcases Nat.lt_or_ge j d.handles.length with old' | new'
      · exact (h.akin_new tells old' new hj hi).symm
      · rw [(tells.akin i x new hi).1, (tells.akin j x new' hj).1]
        exact .refl _

/-- An entry tells of a move that makes no handles. -/
theorem tells_of_handles_eq {d d' : TokenDesk} {m : Move} (now : d.now ≤ d'.now)
    (tokens : d'.tokens = d.tokens) (handles : d'.handles = d.handles)
    (owned : ∀ h a r, m = .act h a r → h < d.handles.length)
    (isFired_iff : ∀ x, d'.isFired x = true ↔ d.isFired x = true ∨
      ∃ h r, m = .act h .cancel r ∧ d.handles[h]? = some x)
    (other : ∀ i j, m ≠ .act i .clone (.handle j)) : Tells ⟨d.now, m⟩ d d' [] where
  instant := rfl
  now_le := now
  handles := by rw [handles, List.append_nil]
  tokens_le := tokens.ge
  token_lt := nofun
  owned := owned
  isFired_iff := isFired_iff
  of_cloned i j eq := absurd eq (other i j)
  akin j x new token := by
    rw [List.append_nil] at token
    exact absurd (List.getElem?_eq_some_iff.1 token).1 (Nat.not_lt.2 new)

/-- A handle more is the last one. -/
theorem eq_length_of_getElem?_concat {xs : List Nat} {x y j : Nat} (new : xs.length ≤ j)
    (found : (xs ++ [y])[j]? = some x) : j = xs.length ∧ x = y := by
  have short := (List.getElem?_eq_some_iff.1 found).1
  obtain rfl : j = xs.length := by
    rw [List.length_append, List.length_singleton] at short
    omega
  rw [List.getElem?_concat_length] at found
  exact ⟨rfl, (Option.some.inj found).symm⟩

/-- An entry tells of an action. -/
theorem tells_act {d : TokenDesk} {h x : Nat} {a : Action} (prompt : a.isPrompt = true)
    (owned : d.handles[h]? = some x) (token_lt : ∀ x ∈ d.handles, x < d.tokens) :
    ∃ more, Tells ⟨d.now, .act h a (d.act x a).2⟩ d (d.act x a).1 more := by
  have short : h < d.handles.length := (List.getElem?_eq_some_iff.1 owned).1
  have own {a : Action} {r : Result} : ∀ h' a' r', Move.act h a r = .act h' a' r' →
      h' < d.handles.length := by
    rintro h' a' r' ⟨⟩
    exact short
  cases a with
  | new =>
      refine ⟨[d.tokens], rfl, Nat.le_refl _, rfl, Nat.le_succ _, ?_, own, fun y => ?_, nofun, ?_⟩
      · exact List.forall_mem_singleton.2 (Nat.lt_succ_self _)
      · exact (or_iff_left (by rintro ⟨_, _, ⟨⟩, _⟩)).symm
      · intro j y new token
        obtain ⟨rfl, rfl⟩ := eq_length_of_getElem?_concat new token
        exact ⟨rfl, .inl (Nat.le_refl _)⟩
  | clone =>
      refine ⟨[x], rfl, Nat.le_refl _, rfl, Nat.le_refl _, ?_, own, fun y => ?_, ?_, ?_⟩
      · exact List.forall_mem_singleton.2 (token_lt x (List.mem_of_getElem? owned))
      · exact (or_iff_left (by rintro ⟨_, _, ⟨⟩, _⟩)).symm
      · rintro i j ⟨⟩
        exact ⟨x, owned, List.getElem?_concat_length⟩
      · intro j y new token
        obtain ⟨rfl, rfl⟩ := eq_length_of_getElem?_concat new token
        exact ⟨rfl, .inr ⟨h, rfl, owned⟩⟩
  | cancel =>
      refine ⟨[], tells_of_handles_eq (Nat.le_refl _) rfl rfl own (fun y => ?_) nofun⟩
      rw [act, isFired_fire, Bool.or_eq_true, beq_iff_eq, or_comm]
      refine or_congr_right ⟨?_, ?_⟩
      · rintro rfl
        exact ⟨h, _, rfl, owned⟩
      · rintro ⟨h', r, ⟨⟩, token⟩
        exact Option.some.inj (token.symm.trans owned)
  | isCancelled =>
      refine ⟨[], tells_of_handles_eq (Nat.le_refl _) rfl rfl own (fun y => ?_) nofun⟩
      exact (or_iff_left (by rintro ⟨_, _, ⟨⟩, _⟩)).symm
  | sleep | sleepUntil | cancelIn | awaitCancel => cases prompt

/-- Each step goes into the log as what it is. -/
theorem Step.exists_tells {s s' : WaitingRoom} {m : Move} (step : Step s m s')
    (token_lt : ∀ x ∈ s.desk.handles, x < s.desk.tokens) :
    ∃ more, Tells ⟨s.desk.now, m⟩ s.desk s'.desk more := by
  have idle {d d' : TokenDesk} {m : Move} (other : ∀ h a r, m ≠ .act h a r)
      (now : d.now ≤ d'.now) (tokens : d'.tokens = d.tokens) (handles : d'.handles = d.handles)
      (fired : d'.fired = d.fired) : Tells ⟨d.now, m⟩ d d' [] := by
    refine tells_of_handles_eq now tokens handles (fun h a r eq => absurd eq (other h a r))
      (fun x => ?_) fun i j => other i _ _
    rw [isFired, isFired, fired]
    refine (or_iff_left ?_).symm
    rintro ⟨h, r, eq, -⟩
    exact other h _ r eq
  cases step with
  | act prompt owned => exact tells_act prompt owned token_lt
  | call => exact ⟨[], idle (by rintro _ _ _ ⟨⟩) (Nat.le_refl _) rfl rfl rfl⟩
  | turn => exact ⟨[], idle (by rintro _ _ _ ⟨⟩) (Nat.le_refl _) rfl rfl rfl⟩
  | pass after => exact ⟨[], idle (by rintro _ _ _ ⟨⟩) after.le rfl rfl rfl⟩

theorem describes_of_run {log : List Entry} {s : WaitingRoom} (run : Run log s) :
    Describes log s.desk := by
  induction run with
  | start =>
      refine ⟨by decide, nofun, nofun, fun x => ?_, ?_, ?_⟩
      · exact ⟨nofun, fun ⟨c, h, r, he, _⟩ => nomatch he⟩
      · rintro i j ⟨t, ⟨⟩⟩
      · -- there is one handle yet
        intro i j x hi hj
        obtain rfl : i = 0 := Nat.lt_one_iff.1 (List.getElem?_eq_some_iff.1 hi).1
        obtain rfl : j = 0 := Nat.lt_one_iff.1 (List.getElem?_eq_some_iff.1 hj).1
        exact .refl _
  | step _ step ih =>
      obtain ⟨more, tells⟩ := step.exists_tells ih.token_lt
      exact ih.concat tells

/-- Handles have the same token just if they come from one another by cloning. -/
theorem akin_iff {log : List Entry} {s : WaitingRoom} (run : Run log s) {i j x : Nat}
    (owned : s.desk.handles[i]? = some x) : Akin log i j ↔ s.desk.handles[j]? = some x := by
  have same : ∀ {i j}, Akin log i j → s.desk.handles[i]? = s.desk.handles[j]? := by
    intro i j akin
    induction akin with
    | rel i j cloned =>
        obtain ⟨y, hi, hj⟩ := (describes_of_run run).of_cloned i j cloned
        exact hi.trans hj.symm
    | refl => rfl
    | symm _ _ _ ih => exact ih.symm
    | trans _ _ _ _ _ first second => exact first.trans second
  exact ⟨fun akin => (same akin).symm.trans owned, (describes_of_run run).akin i j x owned⟩

/-- What is raised through handles of a token is what is cancelled through akin handles. -/
theorem raisings_eq_cancels {log : List Entry} {s : WaitingRoom} (run : Run log s)
    {i x : Nat} (owned : s.desk.handles[i]? = some x) (entries : List Entry) :
    raisings s.desk.handles entries x = cancels log entries i := by
  ext c
  refine exists_congr fun h => exists_congr fun r => and_congr_right fun _ => ?_
  exact (akin_iff run owned).symm

/-- What a handle reads. -/
theorem step_isCancelled_iff {d : TokenDesk} {h : Nat} :
    (d.step h .isCancelled).2 = .flag true ↔ ∃ x, d.handles[h]? = some x ∧ d.isFired x = true := by
  rw [TokenDesk.step]
  rcases d.handles[h]? with - | x
  · exact ⟨nofun, nofun⟩
  · exact ⟨fun up => ⟨x, rfl, Result.flag.inj up⟩,
      fun ⟨_, same, up⟩ => congrArg Result.flag (Option.some.inj same ▸ up)⟩

/-- A handle reads that it is cancelled just if an akin handle was cancelled. -/
theorem isCancelled_iff {log : List Entry} {s : WaitingRoom} (run : Run log s) {h : Nat}
    (owned : h < s.desk.handles.length) :
    (s.desk.step h .isCancelled).2 = .flag true ↔ (cancels log log h).Nonempty := by
  have owned : s.desk.handles[h]? = some s.desk.handles[h] := List.getElem?_eq_getElem owned
  rw [step_isCancelled_iff, ← raisings_eq_cancels run owned, ← (describes_of_run run).isFired_iff]
  exact ⟨fun ⟨x, same, up⟩ => Option.some.inj (owned.symm.trans same) ▸ up,
    fun up => ⟨_, owned, up⟩⟩

/-- A handle that reads that it is cancelled goes on to do so. -/
theorem Step.stays_cancelled {log : List Entry} {s s' : WaitingRoom} {m : Move} {h : Nat}
    (run : Run log s) (step : Step s m s') (up : (s.desk.step h .isCancelled).2 = .flag true) :
    (s'.desk.step h .isCancelled).2 = .flag true := by
  obtain ⟨x, owned, up⟩ := step_isCancelled_iff.1 up
  obtain ⟨more, tells⟩ := step.exists_tells (describes_of_run run).token_lt
  refine step_isCancelled_iff.2 ⟨x, ?_, (tells.isFired_iff x).2 (.inl up)⟩
  rw [tells.handles]
  exact getElem?_append_of_eq_some owned more

end WaitingRoom

end SongSheet
