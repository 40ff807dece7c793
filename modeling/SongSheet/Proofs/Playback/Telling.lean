/-
SongSheet/Proofs/Playback/Telling.lean

What players do with the calls that wait to be told of.

Each of the functions that make up a round keeps the books of the tones that would be heard
(`Fares`), from the end of a player's scheduling up to a round of all players.  New calls are
entered when a note is asked for (`Player.fares_call`), and all calls of a player are lost when
it breaks down (`Player.fares_crash`).  When its tones go on, those that are due are told of, and if
the token is fired all are lost (`Player.turn_sound`).
-/
import SongSheet.Proofs.Playback.Ledger

namespace SongSheet.Playback

open Clock

/-! ### What a player does -/

namespace Player

variable {config : Config} {s s' : Stage Unit} {q q' : Player}

/-- One player does something with the calls that wait for its tones. -/
theorem fares_of_awaits (index : q'.index = q.index)
    (crashed : q.phase = .crashed → q'.phase = .crashed)
    (turn : ∀ {older fresh}, q.Awaits s.now older fresh → ∃ told lost older' fresh',
      q'.Awaits s'.now older' fresh' ∧ Turn s s' told lost (older ++ fresh) (older' ++ fresh') ∧
        (∀ c ∈ told, c.track = q.index ∧ q.phase ≠ .crashed) ∧
        ∀ c ∈ lost, c.track = q.index ∧ (s.cancelled = true ∨ q'.phase = .crashed)) :
    Fares s [q] s' [q'] where
  crashed := by
    rintro i ⟨p, hp, rfl, phase⟩
    obtain rfl := List.mem_singleton.1 hp
    exact ⟨q', List.mem_singleton_self q', index, crashed phase⟩
  sound := by
    rintro i ⟨p, hp, rfl, phase⟩
    obtain rfl := List.mem_singleton.1 hp
    exact ⟨q, List.mem_singleton_self q, index.symm, mt crashed phase⟩
  turn := by
    rintro _ (_ | @⟨_, _, older, fresh, _, here, ⟨⟩⟩)
    obtain ⟨told, lost, older', fresh', here', turn, sound, why⟩ := turn here
    refine ⟨told, lost, _, .cons here' .nil, ?_, fun c hc => ?_, fun c hc => ?_⟩
    · rwa [List.append_nil, List.append_nil]
    · obtain ⟨track, phase⟩ := sound c hc
      exact ⟨q, List.mem_singleton_self q, track.symm, phase⟩
    · obtain ⟨track, reason⟩ := why c hc
      exact reason.imp_right fun phase =>
        ⟨q', List.mem_singleton_self q', index.trans track.symm, phase⟩

/-- One player does something of no concern to its tones. -/
theorem fares_of_turn (turn : Turn s s' [] [] [] []) (index : q'.index = q.index)
    (older : q'.older = q.older) (fresh : q'.fresh = q.fresh)
    (phase : q'.phase = .crashed ↔ q.phase = .crashed) : Fares s [q] s' [q'] := by
  have ringing : q'.ringing = q.ringing := by rw [Player.ringing, Player.ringing, older, fresh]
  refine fares_of_awaits index phase.2 fun {olders freshs} h => ?_
  refine ⟨[], [], olders, freshs, ⟨?_, ?_, ?_, ?_, ?_⟩, turn.idle _, List.forall_mem_nil _,
    List.forall_mem_nil _⟩
  · rw [older]
    exact h.ofOlder
  · rw [fresh]
    exact h.ofFresh
  · rw [index, turn.moment.now]
    exact h.calls
  · rw [ringing]
    exact h.tones
  · rw [ringing]
    exact fun broken => h.silent (phase.1 broken)

theorem fares_collect (s : Stage Unit) (q : Player) :
    Fares s [q] (q.collect s).1 [(q.collect s).2] := by
  refine fares_of_turn (.of_tellAll s fun e he => ?_) rfl rfl rfl Iff.rfl
  obtain ⟨o, -, told⟩ := List.mem_filterMap.1 he
  exact Event.isTone_ofOutcome told

theorem fares_finish (s : Stage Unit) (sound : q.phase ≠ .crashed) :
    Fares s [q] (q.finish s).1 [(q.finish s).2] := by
  have silent : ∀ e ∈ q.farewell s, e.isTone = false := by
    rw [farewell]
    cases s.cancelled && !q.report.cancelled <;> simp [Event.isTone]
  rw [finish_eq]
  exact fares_of_turn (.of_tellAll s silent) rfl rfl rfl (iff_of_false (by rintro ⟨⟩) sound)

theorem fares_join (s : Stage Unit) (sound : q.phase ≠ .crashed) :
    Fares s [q] (q.join s).1 [(q.join s).2] := by
  have counted := fares_collect s q
  rw [join_eq]
  split
  · exact counted.trans (fares_finish _ sound)
  · exact counted.trans
      (fares_of_turn .refl rfl rfl rfl (iff_of_false (by rintro ⟨⟩) sound))

theorem fares_stop (s : Stage Unit) (sound : q.phase ≠ .crashed) :
    Fares s [q] (q.stop s).1 [(q.stop s).2] := by
  let noted : Player := { q with notes := [], report := { q.report with cancelled := true } }
  have told : Fares s [q] (s.tell (.trackCancelled q.name q.report.notesScheduled)) [noted] :=
    fares_of_turn (.of_tell s rfl) rfl rfl rfl Iff.rfl
  exact told.trans (fares_join (q := noted) _ sound)

/-- A player that breaks down loses its tones. -/
theorem fares_crash (s : Stage Unit) (q : Player) :
    Fares s [q] (q.crash s).1 [(q.crash s).2] := by
  refine fares_of_awaits rfl (fun _ => rfl) fun {older fresh} h => ?_
  refine ⟨[], older ++ fresh, [], [], ⟨rfl, rfl, nofun, nofun, fun _ => rfl⟩, ?_, nofun, ?_⟩
  · exact (Turn.of_tell s rfl).lose fun c hc => (h.calls c hc).2.2
  · exact fun c hc => ⟨(h.calls c hc).1, .inr rfl⟩

/-- A call for a tone that would be heard is added to those that wait. -/
theorem fares_call (sound : q.phase ≠ .crashed) {r : Request} {t : Option Tone}
    (called : s.call .logging q.index r = (s', t)) : Fares s [q] s' [q.receive t] := by
  obtain rfl : some (.logging r) = t := congrArg Prod.snd called
  -- the call that is recorded, and the list of it if its tone would be heard
  let c : Call := ⟨q.index, s.now, r, s.bus.gain, false⟩
  let new := [c].filter (·.isAudible)
  have mem_new {x : Call} (hx : x ∈ new) : x = c := List.mem_singleton.1 (List.mem_filter.1 hx).1
  have awaited : new.map (·.request) = (Tone.logging r).awaited?.toList := by
    rw [Tone.awaited?_logging]
    by_cases rest : r.isRest = true
    · simp [new, c, Call.isAudible, rest]
    · simp [new, c, Call.isAudible, rest]
  have turn : Turn s s' [] [] [] new := by
    obtain rfl : (s.call .logging q.index r).1 = s' := congrArg Prod.fst called
    refine ⟨⟨rfl, fun _ => Bool.or_false _⟩, rfl, ?_, .refl _, fun _ he => .inl he, nofun, nofun⟩
    show (new ++ s.calls.filter (·.isAudible)).Perm (([c] ++ s.calls).filter (·.isAudible) ++ [])
    rw [List.filter_append, List.append_nil]
  refine fares_of_awaits rfl id fun {older fresh} h => ?_
  refine ⟨[], [], older, new ++ fresh, ⟨h.ofOlder, ?_, fun x hx => ?_, fun v hv => ?_, ?_⟩, ?_,
    nofun, nofun⟩
  · rw [receive, List.map_append, awaited, h.ofFresh, List.filterMap_cons]
    cases (Tone.logging r).awaited? <;> rfl
  · rw [turn.moment.now]
    rcases List.mem_append.1 hx with old | hx
    · exact h.calls x (List.mem_append_left _ old)
    · rcases List.mem_append.1 hx with here | old
      · rw [mem_new here]
        exact ⟨rfl, Nat.le_refl _, Nat.le_max_left _ _⟩
      · exact h.calls x (List.mem_append_right _ old)
  · rcases List.mem_append.1 hv with old | hv
    · exact h.tones v (List.mem_append_left _ old)
    · rcases List.mem_cons.1 hv with rfl | old
      · exact ⟨r, .inl rfl⟩
      · exact h.tones v (List.mem_append_right _ old)
  · exact fun broken => absurd broken sound
  · have framed := turn.frame older fresh
    rwa [List.append_nil, List.append_assoc] at framed

/-- A player that schedules again holds no calls as new. -/
theorem fares_regroup (s : Stage Unit) (q : Player) : Fares s [q] s [q.regroup] := by
  refine fares_of_awaits rfl id fun {older fresh} h => ?_
  refine ⟨[], [], older ++ fresh, [], ⟨?_, rfl, ?_, ?_, ?_⟩, ?_, nofun, nofun⟩
  · rw [regroup, List.map_append, List.filterMap_append, h.ofOlder, h.ofFresh]
  · rw [List.append_nil]
    exact h.calls
  · rw [regroup, ringing, List.append_nil]
    exact h.tones
  · rw [regroup, ringing, List.append_nil]
    exact h.silent
  · rw [List.append_nil]
    exact .refl

/-- The books are kept from a player on, while it schedules. -/
theorem scheduling_fares (config : Config) (s : Stage Unit) (q : Player) :
    Scheduling config .logging (fun s' q' => Fares s [q] s' [q'] ∧ q'.phase ≠ .crashed)
      fun s' q' => Fares s [q] s' [q'] where
  collect h := ⟨h.1.trans (fares_collect _ _), h.2⟩
  call h _ _ _ _ _ called :=
    ⟨h.1.trans (fares_call h.2 called), by rw [phase_receive]; exact h.2⟩
  advance h _ _ := ⟨h.1.trans (fares_of_turn .refl rfl rfl rfl Iff.rfl), h.2⟩
  wait h := ⟨h.1.trans (.of_turn (.of_tell _ rfl)), h.2⟩
  pause h _ := h.1.trans (fares_of_turn .refl rfl rfl rfl (iff_of_false (by rintro ⟨⟩) h.2))
  join h := h.1.trans (fares_join _ h.2)
  stop h := h.1.trans (fares_stop _ h.2)
  crash h := h.1.trans (fares_crash _ _)

theorem fares_play (config : Config) (s : Stage Unit) (q : Player) :
    Fares s [q] (q.play config .logging s).1 [(q.play config .logging s).2] := by
  refine (scheduling_fares config s q).play (fun ready => ?_) (fun w waiting => ?_)
    fun _ => .of_turn .refl
  · exact ⟨.of_turn (.of_tell s rfl), by simp [ready]⟩
  · have sound : q.phase ≠ .crashed := by simp [waiting]
    exact ⟨⟨.of_turn .refl, sound⟩, fares_regroup s q, sound⟩

/-! ### Tones that go on -/

/-- What is told of tones that are not cut, and what is still to be told of them. -/
theorem poll_of_unfired {voices : List Voice} (logged : ∀ v ∈ voices, ∃ r, v.tone.Logs r)
    (now : Nat) (gain : Single) :
    (((voices.map (·.poll now false)).flatMap (·.1)).map (Event.said · gain)).filter (·.isTone) =
        ((voices.filterMap (·.tone.awaited?)).filter (tick ·.start ≤ now)).map
          (fun r => .said (.sounds r) gain) ∧
      ((voices.map (·.poll now false)).map (·.2)).filterMap (·.tone.awaited?) =
        (voices.filterMap (·.tone.awaited?)).filter (now < tick ·.start) := by
  rw [List.filterMap_eq_flatMap_toList, List.filterMap_eq_flatMap_toList, List.filter_flatMap,
    List.filter_flatMap, List.map_flatMap, List.flatMap_map, List.map_flatMap,
    List.filter_flatMap, List.map_map, List.flatMap_map]
  constructor
  · refine List.flatMap_congr fun v hv => ?_
    obtain ⟨r, logs⟩ := logged v hv
    exact logs.told now gain
  · refine List.flatMap_congr fun v hv => ?_
    obtain ⟨r, logs⟩ := logged v hv
    exact logs.awaited?_poll now

/-- Nothing is told of tones that are cut, and none of them rings on. -/
theorem poll_of_fired {voices : List Voice} (logged : ∀ v ∈ voices, ∃ r, v.tone.Logs r)
    (now : Nat) (gain : Single) :
    (((voices.map (·.poll now true)).flatMap (·.1)).map (Event.said · gain)).filter (·.isTone) =
        [] ∧
      ((voices.map (·.poll now true)).map (·.2)).filter (·.isRinging) = [] := by
  rw [List.map_map, List.filter_eq_nil_iff, List.filter_eq_nil_iff]
  constructor
  · intro e he
    obtain ⟨said, hs, rfl⟩ := List.mem_map.1 he
    obtain ⟨_, hp, hs⟩ := List.mem_flatMap.1 hs
    obtain ⟨v, hv, rfl⟩ := List.mem_map.1 hp
    obtain ⟨r, logs⟩ := logged v hv
    obtain ⟨remark, polled, silent⟩ := logs.poll_fired now
    rw [Voice.poll, polled, List.mem_singleton] at hs
    rw [hs, silent]
    exact Bool.false_ne_true
  · intro u hu
    obtain ⟨v, hv, rfl⟩ := List.mem_map.1 hu
    obtain ⟨r, logs⟩ := logged v hv
    obtain ⟨remark, polled, -⟩ := logs.poll_fired now
    rw [Function.comp_apply, Voice.poll, polled]
    exact Bool.false_ne_true

/-- What still is to be told is told of voices that ring. -/
theorem filterMap_awaited?_filter (voices : List Voice) :
    (voices.filter (·.isRinging)).filterMap (·.tone.awaited?) =
      voices.filterMap (·.tone.awaited?) := by
  rw [List.filterMap_filter]
  refine List.filterMap_congr fun v _ => ?_
  rcases awaited : v.tone.awaited? with - | r
  · rw [ite_self]
  · exact if_pos (Option.isNone_iff_eq_none.2 (Tone.outcome?_of_awaited? awaited))

/-- A tone that ends when it is heard has completed. -/
theorem endings_sound (s : Stage Unit) (track : Nat) {voices : List Voice}
    (logged : ∀ v ∈ voices, ∃ r, v.tone.Logs r) :
    ∀ e ∈ (sound s track voices).1.endings, e ∈ s.endings ∨ e.outcome = .completed := by
  intro e he
  rcases List.mem_append.1 he with new | old
  · exact .inr ((sound_spec track logged).1 _ (List.mem_map_of_mem (List.mem_reverse.1 new)))
  · exact .inl old

/-- What is told of the tones that go on. -/
theorem tones_sound (s : Stage Unit) (track : Nat) (voices : List Voice) :
    (sound s track voices).1.tones =
      (((((voices.map (·.poll s.now s.cancelled)).flatMap (·.1)).map
        (Event.said · s.bus.gain)).filter (·.isTone)).map (s.now, ·)).reverse ++ s.tones :=
  s.tones_tellAll _

section

variable (track : Nat) {voices : List Voice} {calls : List Call}
  (logged : ∀ v ∈ voices, ∃ r, v.tone.Logs r)
  (waits : ∀ c ∈ calls, c.instant ≤ s.now ∧ s.now ≤ c.heardAt)

include logged waits

/-- Once the token is fired all tones are cut, and nothing is told of them but that. -/
theorem turn_sound_of_fired (fired : s.cancelled = true) :
    Turn s (sound s track voices).1 [] calls calls [] ∧ (sound s track voices).2.2 = [] := by
  obtain ⟨silent, none⟩ := poll_of_fired logged s.now s.bus.gain
  have tones := tones_sound s track voices
  rw [fired, silent] at tones
  refine ⟨⟨sameMoment_sound s track voices, rfl, ?_, ?_, endings_sound s track logged, nofun,
    fun c hc => (waits c hc).2⟩, ?_⟩
  · rw [List.nil_append, List.append_nil]
    exact List.perm_append_comm
  · rw [tones]
    exact .refl _
  · rw [sound, fired]
    exact none

/-- Before, no tone is cut, and those are told of whose start is reached. -/
theorem turn_sound_of_unfired (unfired : s.cancelled = false)
    (requests : calls.map (·.request) = voices.filterMap (·.tone.awaited?)) :
    Turn s (sound s track voices).1 (calls.filter (tick ·.request.start ≤ s.now)) [] calls
        (calls.filter (s.now < tick ·.request.start)) ∧
      (calls.filter (s.now < tick ·.request.start)).map (·.request) =
        (sound s track voices).2.2.filterMap (·.tone.awaited?) := by
  obtain ⟨said, stays⟩ := poll_of_unfired logged s.now s.bus.gain
  have tones := tones_sound s track voices
  rw [unfired, said, ← requests, List.filter_map, List.map_map, List.map_map] at tones
  have left : (sound s track voices).2.2 =
      ((voices.map (·.poll s.now s.cancelled)).map (·.2)).filter (·.isRinging) := rfl
  rw [unfired] at left
  rw [← filterMap_awaited?_filter, ← left, ← requests, List.filter_map] at stays
  let due (c : Call) : Bool := tick c.request.start ≤ s.now
  have early : calls.filter (s.now < tick ·.request.start) = calls.filter (!due ·) :=
    List.filter_congr fun c _ => by simp only [due, ← decide_not, Nat.not_le]
  refine ⟨⟨sameMoment_sound s track voices, rfl, ?_, ?_, endings_sound s track logged,
    fun c hc => ⟨unfired, ?_⟩, nofun⟩, stays.symm⟩
  · rw [List.append_nil, early]
    exact ((List.filter_append_perm due calls).append_right _).trans List.perm_append_comm
  · rw [tones]
    exact (List.reverse_perm _).append_right _
  · obtain ⟨hc, past⟩ := List.mem_filter.1 hc
    obtain ⟨called, ahead⟩ := waits c hc
    exact Nat.le_antisymm (Nat.max_le.2 ⟨called, of_decide_eq_true past⟩) ahead

/-- Tones go on: those that are due are told, unless they are cut and lost. -/
theorem turn_sound (requests : calls.map (·.request) = voices.filterMap (·.tone.awaited?)) :
    ∃ told lost left, Turn s (sound s track voices).1 told lost calls left ∧
      left.map (·.request) = (sound s track voices).2.2.filterMap (·.tone.awaited?) ∧
      (∀ c ∈ told ++ lost ++ left, c ∈ calls) ∧ ∀ c ∈ lost, s.cancelled = true := by
  rcases Bool.eq_false_or_eq_true s.cancelled with fired | unfired
  · obtain ⟨turn, none⟩ := turn_sound_of_fired track logged waits fired
    refine ⟨[], calls, [], turn, ?_, ?_, fun _ _ => fired⟩
    · rw [none]
      rfl
    · simp
  · obtain ⟨turn, stays⟩ := turn_sound_of_unfired track logged waits unfired requests
    refine ⟨_, [], _, turn, stays, fun c hc => ?_, nofun⟩
    rw [List.append_nil] at hc
    rcases List.mem_append.1 hc with hc | hc
    · exact List.mem_of_mem_filter hc
    · exact List.mem_of_mem_filter hc

end

/-- Some tones of a player go on. -/
theorem Awaits.hear {older fresh : List Call} (h : q.Awaits s.now older fresh)
    {voices : List Voice} {calls : List Call}
    (requests : calls.map (·.request) = voices.filterMap (·.tone.awaited?))
    (own : ∀ v ∈ voices, v ∈ q.ringing) (known : ∀ c ∈ calls, c ∈ older ++ fresh) :
    ∃ told lost left, Turn s (sound s q.index voices).1 told lost calls left ∧
      left.map (·.request) = (sound s q.index voices).2.2.filterMap (·.tone.awaited?) ∧
      (∀ c ∈ left, c ∈ older ++ fresh) ∧ (∀ c ∈ told, c.track = q.index ∧ q.phase ≠ .crashed) ∧
      (∀ c ∈ lost, c.track = q.index ∧ s.cancelled = true) ∧
      (∀ v ∈ (sound s q.index voices).2.2, ∃ r, v.tone.Logs r) ∧
      (q.phase = .crashed → (sound s q.index voices).2.2 = []) := by
  have logged : ∀ v ∈ voices, ∃ r, v.tone.Logs r := fun v hv => h.tones v (own v hv)
  -- a player that broke down has no tones left, and so tells of none
  have none (broken : q.phase = .crashed) : voices = [] :=
    List.eq_nil_iff_forall_not_mem.2 fun v hv => by
      have ringing := own v hv
      rw [h.silent broken] at ringing
      cases ringing
  obtain ⟨told, lost, left, turn, stays, among, fired⟩ := turn_sound q.index logged
    (fun c hc => (h.calls c (known c hc)).2) requests
  have part {c : Call} (hc : c ∈ told ++ lost ++ left) : c ∈ older ++ fresh := known c (among c hc)
  refine ⟨told, lost, left, turn, stays, fun c hc => part (List.mem_append_right _ hc),
    fun c hc => ?_, fun c hc => ?_, fun v hv => ?_, fun broken => ?_⟩
  · have hc := List.mem_append_left left (List.mem_append_left lost hc)
    refine ⟨(h.calls c (part hc)).1, fun broken => ?_⟩
    rw [none broken] at requests
    have empty : calls = [] := List.map_eq_nil_iff.1 requests
    have some := among c hc
    rw [empty] at some
    cases some
  · have hc' := List.mem_append_left left (List.mem_append_right told hc)
    exact ⟨(h.calls c (part hc')).1, fired c hc⟩
  · obtain ⟨u, hu, same⟩ := (sound_spec q.index logged).2.1 v hv
    obtain ⟨r, logs⟩ := logged u hu
    exact ⟨r, same r logs⟩
  · rw [none broken]
    rfl

theorem fares_soundOlder (s : Stage Unit) (q : Player) :
    Fares s [q] (q.soundOlder s).1 [(q.soundOlder s).2] := by
  refine fares_of_awaits rfl id fun {older fresh} h => ?_
  obtain ⟨told, lost, left, turn, stays, among, sound, fired, logged, silent⟩ :=
    h.hear h.ofOlder (fun _ => List.mem_append_left _) fun _ => List.mem_append_left _
  refine ⟨told, lost, left, fresh, ⟨stays, h.ofFresh, fun c hc => ?_, fun v hv => ?_, ?_⟩,
    turn.frame [] fresh, sound, fun c hc => (fired c hc).imp_right .inl⟩
  · have known : c ∈ older ++ fresh :=
      (List.mem_append.1 hc).elim (among c) (List.mem_append_right _)
    have now : (q.soundOlder s).1.now = s.now := turn.moment.now
    rw [now]
    exact h.calls c known
  · exact (List.mem_append.1 hv).elim (logged v) fun hv => h.tones v (List.mem_append_right _ hv)
  · intro broken
    exact List.append_eq_nil_iff.2
      ⟨silent broken, (List.append_eq_nil_iff.1 (h.silent broken)).2⟩

theorem fares_soundFresh (s : Stage Unit) (q : Player) :
    Fares s [q] (q.soundFresh s).1 [(q.soundFresh s).2] := by
  refine fares_of_awaits rfl id fun {older fresh} h => ?_
  obtain ⟨told, lost, left, turn, stays, among, sound, fired, logged, silent⟩ :=
    h.hear h.ofFresh (fun _ => List.mem_append_right _) fun _ => List.mem_append_right _
  refine ⟨told, lost, older, left, ⟨h.ofOlder, stays, fun c hc => ?_, fun v hv => ?_, ?_⟩, ?_,
    sound, fun c hc => (fired c hc).imp_right .inl⟩
  · have now : (q.soundFresh s).1.now = s.now := turn.moment.now
    rw [now]
    exact h.calls c ((List.mem_append.1 hc).elim (List.mem_append_left _) (among c))
  · exact (List.mem_append.1 hv).elim (fun hv => h.tones v (List.mem_append_left _ hv)) (logged v)
  · intro broken
    exact List.append_eq_nil_iff.2
      ⟨(List.append_eq_nil_iff.1 (h.silent broken)).1, silent broken⟩
  · have framed := turn.frame older []
    rwa [List.append_nil, List.append_nil] at framed

theorem fares_soundAll (s : Stage Unit) (q : Player) :
    Fares s [q] (q.soundAll s).1 [(q.soundAll s).2] := by
  have both : Fares s [q] (q.soundBoth s).1 [(q.soundBoth s).2] :=
    (fares_soundOlder s q).trans (fares_soundFresh _ _)
  rw [soundAll_eq]
  split
  case isTrue joining =>
    -- when the last tone is over, a player that waits for its tones is done
    have joining : (q.soundBoth s).2.phase = .joining := joining
    exact both.trans (fares_join _ (by simp [joining]))
  case isFalse => exact both

end Player

/-! ### Rounds -/

namespace Performance

/-- What each player does, all do. -/
theorem fares_visit {act : Stage Unit → Player → Stage Unit × Player}
    (h : ∀ s q, Fares s [q] (act s q).1 [(act s q).2]) (s : Stage Unit) (ps : List Player) :
    Fares s ps (visit act s ps).1 (visit act s ps).2 := by
  induction ps generalizing s with
  | nil => exact .of_turn .refl
  | cons q ps ih => exact (h s q).cons (ih _)

variable {p : Performance Unit}

/-- What players do with the calls that wait, in the visits of a round. -/
theorem fares_proceed (logs : p.setup.renderer = .logging) :
    Fares p.stage p.players p.proceed.stage p.proceed.players := by
  have older := fares_visit Player.fares_soundOlder
  have play := fares_visit fun s q =>
    (logs ▸ Player.fares_play p.setup.config s q :
      Fares s [q] (q.play p.setup.config p.setup.renderer s).1
        [(q.play p.setup.config p.setup.renderer s).2])
  have all := fares_visit Player.fares_soundAll
  exact ((older _ _).trans (play _ _)).trans (all _ _)

end Performance

end SongSheet.Playback
