/-
SongSheet/Proofs/Playback/Fired.lean

What is still asked for once the token is fired.

A player looks at the token before each note, and not again while it calls the
renderer for the pitches of the note.  So once the token is fired, a member that is
not just between the two asks only for the rest of the note it is in the middle of
(`Member.left`).  When members take turns, and a call fires the token, all others are
at rest, and only the caller has something left (`Ensemble.leaves_of_reached`); when
all are at rest, nobody has (`Ensemble.Leaves.quiet`).
-/
import SongSheet.Proofs.Playback.FanOut

namespace SongSheet.Playback

open Clock Relation

variable {σ : Type}

/-! ### The calls of an instant -/

/-- Nothing but these calls, the newest first, and no time lies between two stages. -/
structure Stage.During (s s' : Stage σ) (new : List Call) : Prop where
  calls : s'.calls = new ++ s.calls
  now : s'.now = s.now
  cancelled : s'.cancelled = (s.cancelled || new.any (·.cancels))
  instants : ∀ call ∈ new, call.instant = s.now

namespace Stage

variable {s s' s'' : Stage σ} {new new' : List Call}

/-- Nothing is called for. -/
theorem during_of_eq (calls : s'.calls = s.calls) (now : s'.now = s.now)
    (cancelled : s'.cancelled = s.cancelled) : s.During s' [] :=
  ⟨calls, now, by rw [cancelled, List.any_nil, Bool.or_false], nofun⟩

theorem during_tellAll (s : Stage σ) (es : List Event) : s.During (s.tellAll es) [] :=
  during_of_eq (calls_tellAll s es) (now_tellAll s es) (cancelled_tellAll s es)

theorem During.trans (h : s.During s' new) (k : s'.During s'' new') :
    s.During s'' (new' ++ new) where
  calls := by rw [k.calls, h.calls, List.append_assoc]
  now := k.now.trans h.now
  cancelled := by
    rw [k.cancelled, h.cancelled, List.any_append, Bool.or_assoc, Bool.or_comm (new.any _)]
  instants call hc := by
    rcases List.mem_append.1 hc with later | earlier
    · exact (k.instants call later).trans h.now
    · exact h.instants call earlier

/-- The one call of a call. -/
theorem during_call {renderer : Renderer σ} {i : Nat} {r : Request} {t : Option Tone}
    (h : s.call renderer i r = (s', t)) :
    ∃ call : Call, s.During s' [call] ∧ call.track = i ∧ call.request = r := by
  obtain ⟨call, track, instant, request, calls, now, -, cancelled⟩ := call_spec h
  refine ⟨call, ⟨calls, now, by simpa using cancelled, fun x hx => ?_⟩, track, request⟩
  rw [List.mem_singleton.1 hx, instant]

end Stage

open Stage

/-- The end of a playback is no call. -/
theorem Player.during_finish (s : Stage σ) (p : Player) : s.During (p.finish s).1 [] := by
  rw [Player.finish_eq]
  exact s.during_tellAll _

/-! ### The rest of a note -/

namespace Member

/-- What a member asks for before it looks at the token again, unless it is about to
turn to a note. -/
def left (m : Member) : List Request :=
  match m.place, m.player.notes with
  | .calling duration pitches, n :: _ => pitches.map (.ofNote n duration m.player.cursor)
  | _, _ => []

variable {config : Config} {renderer : Renderer σ} {t : Track} {s s' : Stage σ} {m m' : Member}

theorem left_of_rest (h : m.place = .rest) : m.left = [] := by rw [left, h]

theorem left_of_calling {p : Player} {n : Note} {rest : List Note} {duration : Nat}
    {pitches : List Single} (h : p.notes = n :: rest) :
    left ⟨p, .calling duration pitches⟩ = pitches.map (.ofNote n duration p.cursor) := by
  rw [left, h]

theorem left_of_called (p : Player) (duration : Nat) : left ⟨p, .calling duration []⟩ = [] := by
  rcases h : p.notes with - | ⟨n, rest⟩
  · rw [left, h]
  · exact left_of_calling h

/-- A step is a call of the first request that is left, or it is no call.  After a call
the others are left, or the member is broken.  Without a call, and with the token fired,
the requests that are left stay the same. -/
theorem Step.call_or_quiet (step : m.Step config renderer s s' m') :
    (s.During s' [] ∧
      (s.cancelled = true → m.place ≠ .counting → m'.place ≠ .counting ∧ m'.left = m.left)) ∨
    ∃ call rest, s.During s' [call] ∧ call.track = m.player.index ∧
      m.left = call.request :: rest ∧ m'.place ≠ .counting ∧ (m'.left = rest ∨ m'.IsBroken) := by
  have told (e : Event) := s.during_tellAll [e]
  have same : s.During s [] := during_of_eq rfl rfl rfl
  cases step with
  | call hn called =>
      obtain ⟨call, during, track, request⟩ := during_call called
      refine .inr ⟨call, _, during, track, ?_, nofun, .inl (left_of_calling hn)⟩
      rw [left_of_calling hn, request]
      rfl
  | @refused s' p n _ duration _ pitches hn called =>
      obtain ⟨call, during, track, request⟩ := during_call called
      refine .inr ⟨call, pitches.map (.ofNote n duration p.cursor),
        during.trans (during_tellAll _ [_]), track, ?_, nofun, .inr ⟨rfl, rfl⟩⟩
      rw [left_of_calling hn, request]
      rfl
  -- with the token fired there is no way on from a look at it
  | goOn unfired => exact .inl ⟨same, fun fired => by rw [unfired] at fired; cases fired⟩
  | turn => exact .inl ⟨same, fun _ looked => absurd rfl looked⟩
  | noLength => exact .inl ⟨told _, fun _ looked => absurd rfl looked⟩
  | count _ here =>
      refine .inl ⟨s.during_tellAll _, fun _ looked => ?_⟩
      rcases here with here | ⟨rfl, -⟩
      · exact absurd here looked
      · exact ⟨nofun, rfl⟩
  | finish => exact .inl ⟨Player.during_finish s _, fun _ _ => ⟨nofun, rfl⟩⟩
  -- nothing is left of a note when all its pitches were called for
  | advance => exact .inl ⟨same, fun _ _ => ⟨nofun, (left_of_called _ _).symm⟩⟩
  | beyond => exact .inl ⟨told _, fun _ _ => ⟨nofun, (left_of_called _ _).symm⟩⟩
  | start | ahead | tooLate | stop => exact .inl ⟨told _, fun _ _ => ⟨nofun, rfl⟩⟩
  | exhausted | near | skip | pause | wake | cut =>
      exact .inl ⟨same, fun _ _ => ⟨nofun, rfl⟩⟩

/-- The requests that are left are the end of a note, and what comes before them in the
plan was asked for. -/
theorem InStep.left (h : m.InStep t s) {r : Request} {rest : List Request}
    (hl : m.left = r :: rest) :
    ∃ n done, t.notes[m.player.report.notesScheduled]? = some n ∧
      n.fan (t.start m.player.report.notesScheduled) = done ++ r :: rest ∧
      s.requestsOf m.player.index = t.requests m.player.report.notesScheduled ++ done := by
  obtain ⟨p, place⟩ := m
  rw [Member.left] at hl
  split at hl
  case h_2 => cases hl
  case h_1 duration pitches n behind hplace hn =>
    obtain rfl : place = .calling duration pitches := hplace
    obtain ⟨here, -⟩ := h.next (.inl nofun) hn
    obtain ⟨-, ⟨n', done, found, length, split, rfl⟩, requests⟩ := h.requests
    obtain rfl : n = n' := Option.some.inj (here.symm.trans found)
    have nanoseconds : n.nanoseconds = duration := by
      rw [Note.nanoseconds, length, Option.getD_some]
    refine ⟨n, _, here, ?_, requests⟩
    rw [Note.fan, nanoseconds, split, List.map_append, ← h.cursor, hl]

/-- A member does not look at the token before it asked for these requests; it may break
down before. -/
structure Keeps (left : List Request) (m : Member) : Prop where
  looks : m.place ≠ .counting
  left : m.left = left ∨ m.IsBroken

theorem keeps_of_rest (h : m.place = .rest) : m.Keeps [] :=
  ⟨by rw [h]; nofun, .inl (left_of_rest h)⟩

/-- At rest nothing is left, unless the member broke down. -/
theorem Keeps.of_rest {left : List Request} (h : m.Keeps left) (rest : m.place = .rest) :
    left = [] ∨ m.player.phase = .crashed := by
  rcases h.left with rfl | broken
  · exact .inl (left_of_rest rest)
  · exact .inr broken.2

/-- With the token fired, a step is quiet, or a call of the first request that is left. -/
theorem Keeps.step {left : List Request} (h : m.Keeps left) (fired : s.cancelled = true)
    (step : m.Step config renderer s s' m') :
    (s.During s' [] ∧ m'.Keeps left) ∨
    ∃ call rest, s.During s' [call] ∧ call.track = m.player.index ∧
      left = call.request :: rest ∧ m'.Keeps rest := by
  have here : m.left = left := h.left.resolve_right fun broken => broken.not_step step
  rcases step.call_or_quiet with ⟨during, quiet⟩ | ⟨call, rest, during, track, eq, looks, after⟩
  · obtain ⟨looks, same⟩ := quiet fired h.looks
    exact .inl ⟨during, looks, .inl (same.trans here)⟩
  · exact .inr ⟨call, rest, during, track, here.symm.trans eq, looks, after⟩

/-- The ends of tones leave the requests that are left. -/
theorem Keeps.sound {left : List Request} {p' : Player} (h : m.Keeps left)
    (sounds : m.player.Sounds s s' p') : Keeps left ⟨p', m.place⟩ := by
  obtain ⟨endings, older, fresh, -, -, rfl, rfl⟩ := sounds
  exact ⟨h.looks, h.left⟩

end Member

/-! ### All members -/

open Member

namespace Ensemble

variable {setup : Setup σ} {sheet : Sheet} {may : Ensemble σ → Nat → Prop} {c c' : Ensemble σ}
  {i : Nat} {left : List Request}

/-- The token is fired, and requests are left to the member of one track only. -/
structure Leaves (i : Nat) (left : List Request) (c : Ensemble σ) : Prop where
  fired : c.stage.cancelled = true
  keeps : ∀ j (m : Member), c.members[j]? = some m → m.Keeps (if j = i then left else [])

/-- A change of one member, which may be the one that requests are left to. -/
theorem Leaves.set (h : c.Leaves i left) {j : Nat} {m m' : Member} {s' : Stage σ}
    {left' : List Request} (found : c.members[j]? = some m) (fired : s'.cancelled = true)
    (keeps : m'.Keeps (if j = i then left' else [])) (other : j ≠ i → left' = left) :
    Leaves i left' ⟨s', c.members.set j m'⟩ := by
  refine ⟨fired, ?_⟩
  intro k q hq
  rcases getElem?_set_cases found hq with ⟨rfl, rfl⟩ | ⟨hk, hq⟩
  · exact keeps
  · have before := h.keeps k q hq
    by_cases hi : k = i
    · rw [if_pos hi] at before ⊢
      rw [other (fun eq => hk (hi.trans eq.symm))]
      exact before
    · rw [if_neg hi] at before ⊢
      exact before

/-- A move is quiet, or a call of the first request that is left. -/
theorem Leaves.move (h : c.Leaves i left) (move : Move setup may c c') :
    (c'.stage.calls = c.stage.calls ∧ c'.Leaves i left) ∨
    ∃ call rest m, c'.stage.calls = call :: c.stage.calls ∧ c.members[i]? = some m ∧
      call.track = m.player.index ∧ left = call.request :: rest ∧ c'.Leaves i rest := by
  cases move with
  | @step j m m' s' _ found step =>
      rcases (h.keeps j m found).step h.fired step with
        ⟨during, keeps⟩ | ⟨call, rest, during, track, eq, keeps⟩
      · have fired : s'.cancelled = true := by rw [during.cancelled, h.fired]; rfl
        exact .inl ⟨during.calls, h.set found fired keeps fun _ => rfl⟩
      · -- a call is made by the one member that requests are left to
        have fired : s'.cancelled = true := by rw [during.cancelled, h.fired, Bool.true_or]
        by_cases hj : j = i
        · subst hj
          rw [if_pos rfl] at eq
          refine .inr ⟨call, rest, m, during.calls, found, track, eq, h.set found fired ?_ ?_⟩
          · rw [if_pos rfl]
            exact keeps
          · exact fun other => absurd rfl other
        · rw [if_neg hj] at eq
          cases eq
  | @sound j m p' s' found sounds =>
      have keeps := (h.keeps j m found).sound sounds
      obtain ⟨endings, older, fresh, -, -, rfl, -⟩ := sounds
      exact .inl ⟨rfl, h.set found h.fired keeps fun _ => rfl⟩
  | meanwhile meanwhile =>
      exact .inl ⟨meanwhile.calls, meanwhile.cancelled h.fired, h.keeps⟩

/-- With nothing left nothing more is called for. -/
theorem Leaves.quiet (h : c.Leaves i []) (moves : ReflTransGen (Move setup may) c c') :
    c'.stage.calls = c.stage.calls ∧ c'.stage.cancelled = true := by
  have quiet : c'.stage.calls = c.stage.calls ∧ c'.Leaves i [] := by
    induction moves with
    | refl => exact ⟨rfl, h⟩
    | tail _ move ih =>
        rcases ih.2.move move with ⟨calls, leaves⟩ | ⟨_, _, _, -, -, -, eq, -⟩
        · exact ⟨calls.trans ih.1, leaves⟩
        · cases eq
  exact ⟨quiet.1, quiet.2.fired⟩

/-! ### A call that fires the token -/

/-- A call is for a pitch of a note of its track, after the plan of the notes before it.
The calls after it are for the next pitches of that note, and some requests are left. -/
def Within (sheet : Sheet) (before : List Call) (call : Call) (after : List Call)
    (left : List Request) : Prop :=
  ∃ t k n done, sheet.tracks[call.track]? = some t ∧ t.notes[k]? = some n ∧
    n.fan (t.start k) = done ++ call.request :: (after.map (·.request) ++ left) ∧
    (before.filter (·.track == call.track)).map (·.request) = t.requests k ++ done ∧
    ∀ x ∈ after, x.track = call.track

/-- One more call for the note. -/
theorem Within.next {before after : List Call} {call x : Call}
    (h : Within sheet before call after (x.request :: left)) (track : x.track = call.track) :
    Within sheet before call (after ++ [x]) left := by
  obtain ⟨t, k, n, done, ht, hn, fan, earlier, tracks⟩ := h
  refine ⟨t, k, n, done, ht, hn, by simpa using fan, earlier, ?_⟩
  intro y hy
  rcases List.mem_append.1 hy with hy | hy
  · exact tracks y hy
  · rw [List.mem_singleton.1 hy, track]

/-- When members take turns, a call that fires the token leaves at most the rest of its
note: all others are at rest. -/
theorem leaves_of_step {m m' : Member} {s' : Stage σ} {call : Call} {rest : List Request}
    (reached : Reached setup sheet inTurn c) (alone : c.inTurn i) (found : c.members[i]? = some m)
    (step : m.Step setup.config setup.renderer c.stage s' m')
    (during : c.stage.During s' [call]) (track : call.track = m.player.index)
    (left : m.left = call.request :: rest) (keeps : m'.Keeps rest) (cancels : call.cancels = true) :
    Within sheet c.stage.calls.reverse call [] rest ∧
      Leaves call.track rest ⟨s', c.members.set i m'⟩ := by
  obtain ⟨t, ht⟩ := exists_track reached found
  obtain ⟨index, plan⟩ := (memberInvariant_inStep setup).all_of_reached reached i m found
  obtain ⟨n, done, hn, fan, requests⟩ :=
    ((plan t ht).resolve_left fun broken => broken.not_step step).left left
  rw [index] at track requests
  constructor
  · rw [Within, track]
    exact ⟨t, _, n, done, ht, hn, fan, requests, nofun⟩
  · rw [track]
    refine ⟨by simp [during.cancelled, cancels], ?_⟩
    intro j q hq
    rcases getElem?_set_cases found hq with ⟨rfl, rfl⟩ | ⟨hj, hq⟩
    · rw [if_pos rfl]
      exact keeps
    · rw [if_neg hj]
      exact keeps_of_rest (alone j q hj hq)

/-- A move makes at most one call; see `leaves_of_step` if that fires the token. -/
theorem leaves_of_move (reached : Reached setup sheet inTurn c) (move : Move setup inTurn c c') :
    c'.stage.calls = c.stage.calls ∨
    ∃ call, c'.stage.calls = call :: c.stage.calls ∧
      (call.cancels = true → ∃ left, Within sheet c.stage.calls.reverse call [] left ∧
        c'.Leaves call.track left) := by
  cases move with
  | step alone found step =>
      rcases step.call_or_quiet with ⟨during, -⟩ | ⟨call, left, during, track, eq, looks, after⟩
      · exact .inl during.calls
      · exact .inr ⟨call, during.calls, fun cancels =>
          ⟨left, leaves_of_step reached alone found step during track eq ⟨looks, after⟩ cancels⟩⟩
  | sound _ sounds =>
      obtain ⟨endings, older, fresh, -, -, rfl, -⟩ := sounds
      exact .inl rfl
  | meanwhile meanwhile => exact .inl meanwhile.calls

/-- When members take turns, the calls after one that fires the token are for the rest of
its note. -/
theorem leaves_of_reached (reached : Reached setup sheet inTurn c) {before after : List Call}
    {call : Call} (calls : c.stage.calls.reverse = before ++ call :: after)
    (cancels : call.cancels = true) :
    ∃ left, Within sheet before call after left ∧ c.Leaves call.track left := by
  induction reached generalizing after with
  | refl =>
      have none : ([] : List Call) = before ++ call :: after := calls
      simp at none
  | @tail c c' reached move ih =>
      rcases leaves_of_move reached move with same | ⟨x, more, fires⟩
      · obtain ⟨left, within, leaves⟩ := ih (same ▸ calls)
        rcases leaves.move move with ⟨-, leaves⟩ | ⟨y, -, -, more, -⟩
        · exact ⟨left, within, leaves⟩
        · exact absurd (more.symm.trans same) (List.cons_ne_self _ _)
      · rw [more, List.reverse_cons] at calls
        rcases List.eq_nil_or_concat after with rfl | ⟨earlier, y, rfl⟩
        · -- the call was made in the move
          obtain ⟨rfl, last⟩ := List.append_inj' calls rfl
          obtain rfl : x = call := List.singleton_inj.1 last
          exact fires cancels
        · -- the call was made before, and another one in the move
          rw [List.concat_eq_append, ← List.cons_append, ← List.append_assoc] at calls
          obtain ⟨old, last⟩ := List.append_inj' calls rfl
          obtain rfl : x = y := List.singleton_inj.1 last
          obtain ⟨left, within, leaves⟩ := ih old
          rcases leaves.move move with ⟨same, -⟩ | ⟨y, left, m, more', found, track, rfl, leaves'⟩
          · exact absurd (more.symm.trans same) (List.cons_ne_self _ _)
          · obtain rfl : x = y := (List.cons.inj (more.symm.trans more')).1
            obtain ⟨index, -⟩ := (memberInvariant_inStep setup).all_of_reached reached _ _ found
            rw [List.concat_eq_append]
            exact ⟨left, within.next (track.trans index), leaves'⟩

end Ensemble

end SongSheet.Playback
