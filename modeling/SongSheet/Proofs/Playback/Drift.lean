/-
SongSheet/Proofs/Playback/Drift.lean

How far the notes of a track drift.

A note lasts an exact number of seconds, that of its note value in the tempo of its row
(`NoteValue.exactSeconds`).  The program rounds it twice: the quotient to a double, and the
double to whole nanoseconds.  A length is at most six minutes, where doubles are so close that
the first rounding is off by at most `2 ^ -45` seconds (`NoteValue.abs_seconds_sub_le`); the
second is off by half a nanosecond.  The start of a note is the sum of the rounded lengths
before it, so what it is off grows by a constant from note to note (`abs_start_sub_le`).

What is asked of the renderer starts at these instants and no others: whatever happens to a
track, breaking down included, the requests it has made are the first ones of its plan
(`memberInvariant_isPrefix`).
-/
import SongSheet.Proofs.Binary.Nearest
import SongSheet.Proofs.Playback.Fired
import SongSheet.Proofs.Playback.Termination
import SongSheet.Proofs.Sheet.Provenance

namespace SongSheet

open Clock Command Playback

/-! ### One note -/

namespace NoteValue

/-- How long a note value lasts at a tempo: its beats, at so many beats a minute. -/
def exactSeconds (v : NoteValue) (bpm : Nat) : ℚ := v.eighths / 8 * 60 / bpm

variable {v : NoteValue} {bpm : Nat}

theorem exactSeconds_eq (v : NoteValue) (bpm : Nat) :
    v.exactSeconds bpm = (v.eighths * 60 : Nat) / (8 * bpm : Nat) := by
  rw [exactSeconds, Nat.cast_mul, Nat.cast_mul, div_mul_eq_mul_div, div_div]
  rfl

/-- A second in units, as a power of two. -/
theorem oneUnits_double : Format.double.oneUnits = 2 ^ 1030 * 2 ^ 44 := by decide +kernel

/-- The length in seconds is off by less than a thirtieth of a picosecond. -/
theorem abs_seconds_sub_le (slow : 1 ≤ bpm) (fast : bpm ≤ largestNumber) :
    |(v.seconds bpm).value - v.exactSeconds bpm| ≤ 1 / 2 ^ 45 := by
  obtain ⟨positive, low, high⟩ := v.seconds_spec slow fast
  obtain ⟨finite, -⟩ := nanoseconds_of_within positive low high
  have eighths := v.eighths_mem
  have quotient : v.seconds bpm = Binary.ofQuotient false (v.eighths * 60) (8 * bpm) :=
    if_neg (by omega)
  have small : v.eighths * 60 * Format.double.oneUnits <
      2 ^ (Format.double.fractionBits + 1030 + 1) * (8 * bpm) := by
    rw [oneUnits_double]
    calc v.eighths * 60 * (2 ^ 1030 * 2 ^ 44) ≤ 48 * 60 * (2 ^ 1030 * 2 ^ 44) := by
          apply Nat.mul_le_mul_right
          omega
      _ < 2 ^ (Format.double.fractionBits + 1030 + 1) * 8 := by decide +kernel
      _ ≤ 2 ^ (Format.double.fractionBits + 1030 + 1) * (8 * bpm) := by
          apply Nat.mul_le_mul_left
          omega
  rw [quotient] at finite ⊢
  have off := Binary.abs_value_ofQuotient_sub_le (by omega) finite small
  rw [exactSeconds_eq]
  apply off.trans_eq
  have nonzero : (2 : ℚ) ^ 1030 ≠ 0 := pow_ne_zero _ two_ne_zero
  rw [oneUnits_double, Nat.cast_mul, Nat.cast_pow, Nat.cast_pow, Nat.cast_two, mul_comm (1 / 2),
    mul_div_mul_left _ _ nonzero]
  norm_num

end NoteValue

/-- What one note adds to the drift at most, in nanoseconds. -/
def driftPerNote : ℚ := 1 / 2 + 1 / 2 ^ 45 * second

theorem driftPerNote_lt : driftPerNote < 51 / 100 := by
  norm_num [driftPerNote, second]

/-- The nanoseconds of a note, and its exact length. -/
theorem Settings.abs_nanoseconds_sub_le {s : Settings} (slow : 1 ≤ s.bpm)
    (fast : s.bpm ≤ largestNumber) (c : Cell) :
    |((s.note c).nanoseconds : ℚ) - c.value.exactSeconds s.bpm * second| ≤ driftPerNote := by
  obtain ⟨positive, low, high⟩ := c.value.seconds_spec slow fast
  obtain ⟨finite, some, -, ns, length, -⟩ := nanoseconds_of_within positive low high
  have nanoseconds : (s.note c).nanoseconds = ns := by
    show (Clock.nanoseconds (c.value.seconds s.bpm)).getD 0 = ns
    rw [length, Option.getD_some]
  have whole := (isNearest_of_nanoseconds ⟨finite, some⟩ length).close
  have quotient := NoteValue.abs_seconds_sub_le (v := c.value) slow fast
  have second_pos : (0 : ℚ) < second := by norm_num [second]
  rw [nanoseconds, driftPerNote]
  calc |(ns : ℚ) - c.value.exactSeconds s.bpm * second|
      ≤ |(ns : ℚ) - (c.value.seconds s.bpm).value * second| +
          |(c.value.seconds s.bpm).value * second - c.value.exactSeconds s.bpm * second| :=
        abs_sub_le _ _ _
    _ = |(c.value.seconds s.bpm).value * second - ns| +
          |(c.value.seconds s.bpm).value - c.value.exactSeconds s.bpm| * second := by
        rw [abs_sub_comm, ← sub_mul, abs_mul, abs_of_pos second_pos]
    _ ≤ 1 / 2 + 1 / 2 ^ 45 * second :=
        add_le_add whole (mul_le_mul_of_nonneg_right quotient second_pos.le)

/-! ### The notes of a track -/

/-- How long the note of a cell lasts, in the tempo in force at its row. -/
def Origin.exactSeconds (cs : List Located) (o : Origin) : ℚ :=
  o.cell.value.exactSeconds (Settings.inForce (cs.take o.row)).bpm

/-- When the note of the `k`-th cell starts, in seconds: the exact lengths before it. -/
def exactStart (cs : List Located) (os : List Origin) (k : Nat) : ℚ :=
  ((os.take k).map (Origin.exactSeconds cs)).sum

/-- How many pitches the cells before the `k`-th have. -/
def pitchesBefore (os : List Origin) (k : Nat) : Nat :=
  ((os.take k).map (·.cell.pitches.length)).sum

theorem exactStart_succ {cs : List Located} {os : List Origin} {k : Nat} {o : Origin}
    (h : os[k]? = some o) : exactStart cs os (k + 1) = exactStart cs os k + o.exactSeconds cs := by
  rw [exactStart, List.take_add_one, h, List.map_append, List.sum_append]
  simp [exactStart]

theorem pitchesBefore_succ {os : List Origin} {k : Nat} {o : Origin} (h : os[k]? = some o) :
    pitchesBefore os (k + 1) = pitchesBefore os k + o.cell.pitches.length := by
  rw [pitchesBefore, List.take_add_one, h, List.map_append, List.sum_append]
  simp [pitchesBefore]

/-- Tempos in force can be played in. -/
theorem bpm_inForce {cs : List Located} {b : Builder} (sound : ∀ c ∈ cs, c.command.IsSound)
    (run : Builder.initial.run cs = .ok b) (row : Nat) :
    1 ≤ (Settings.inForce (cs.take row)).bpm ∧
      (Settings.inForce (cs.take row)).bpm ≤ largestNumber := by
  rw [← List.take_append_drop row cs, Builder.run_append] at run
  obtain ⟨before, run, -⟩ := exists_of_bind run
  rw [← Builder.settings_of_run run]
  apply (Builder.isSound_of_run _ run).settings.bpm
  intro c hc
  exact sound c (List.mem_of_mem_take hc)

section OfOrigins

variable {cs : List Located} {os : List Origin} {t : Track}
variable (notes : t.notes = os.map (Origin.note cs))

include notes

/-- The notes stand where their cells do. -/
theorem getElem?_notes {k : Nat} {o : Origin} (h : os[k]? = some o) :
    t.notes[k]? = some (o.note cs) := by
  rw [notes, List.getElem?_map, h, Option.map_some]

/-- From note to note, the start is off by a constant more. -/
theorem abs_start_sub_le {e : ℚ}
    (each : ∀ o : Origin, |((o.note cs).nanoseconds : ℚ) - o.exactSeconds cs * second| ≤ e)
    {k : Nat} (inside : k ≤ os.length) :
    |(t.start k : ℚ) - exactStart cs os k * second| ≤ e * k := by
  induction k with
  | zero => simp [Track.start, Performance.lengthOf, exactStart]
  | succ k ih =>
      have here : os[k]? = some os[k] := List.getElem?_eq_getElem inside
      rw [Track.start_succ (getElem?_notes notes here), exactStart_succ here, Nat.cast_add, add_mul,
        add_sub_add_comm]
      calc |((t.start k : ℚ) - exactStart cs os k * second) +
              (((os[k].note cs).nanoseconds : ℚ) - os[k].exactSeconds cs * second)|
          ≤ |(t.start k : ℚ) - exactStart cs os k * second| +
              |((os[k].note cs).nanoseconds : ℚ) - os[k].exactSeconds cs * second| :=
            abs_add_le _ _
        _ ≤ e * k + e := add_le_add (ih (Nat.le_of_succ_le inside)) (each _)
        _ = e * (k + 1 : Nat) := by
            push_cast
            ring

/-- The plan has a request for each pitch. -/
theorem length_requests_eq {k : Nat} (inside : k ≤ os.length) :
    (t.requests k).length = pitchesBefore os k := by
  induction k with
  | zero => rfl
  | succ k ih =>
      have here : os[k]? = some os[k] := List.getElem?_eq_getElem inside
      rw [Track.requests_succ (getElem?_notes notes here), pitchesBefore_succ here,
        List.length_append, ih (Nat.le_of_succ_le inside), Note.fan, List.length_map]
      rfl

end OfOrigins

/-! ### What is asked for -/

namespace Track

variable {t : Track} {k p : Nat} {r : Request}

/-- Each request of the plan is for a pitch of a note, behind those of the notes before it, and
starts with the note. -/
theorem exists_of_getElem?_requests (inside : k ≤ t.notes.length)
    (h : (t.requests k)[p]? = some r) :
    ∃ l n j, l < k ∧ t.notes[l]? = some n ∧ p = (t.requests l).length + j ∧
      n.pitches[j]? = some r.frequency ∧ r.start = t.start l := by
  induction k with
  | zero => cases h
  | succ k ih =>
      have here : t.notes[k]? = some t.notes[k] := List.getElem?_eq_getElem inside
      rw [requests_succ here] at h
      rcases Nat.lt_or_ge p (t.requests k).length with before | behind
      · rw [List.getElem?_append_left before] at h
        obtain ⟨l, n, j, earlier, found⟩ := ih (Nat.le_of_succ_le inside) h
        exact ⟨l, n, j, Nat.lt_succ_of_lt earlier, found⟩
      · rw [List.getElem?_append_right behind, Note.fan, List.getElem?_map,
          Option.map_eq_some_iff] at h
        obtain ⟨f, pitch, rfl⟩ := h
        exact ⟨k, t.notes[k], _, Nat.lt_succ_self k, here, (Nat.add_sub_cancel' behind).symm,
          pitch, rfl⟩

/-- A beginning of a note comes behind the notes before it. -/
theorem requests_append_prefix {n : Note} {rs : List Request} (here : t.notes[k]? = some n)
    (first : rs <+: n.fan (t.start k)) : t.requests k ++ rs <+: t.requests t.notes.length := by
  have inside : k < t.notes.length := (List.getElem?_eq_some_iff.1 here).1
  apply List.IsPrefix.trans _ (requests_prefix_of_le inside (Nat.le_refl _))
  rw [requests_succ here]
  exact (List.prefix_append_right_inj _).2 first

end Track

namespace Playback

variable {σ : Type}

namespace Member

variable {config : Config} {renderer : Renderer σ} {t : Track} {s s' : Stage σ} {m m' : Member}

/-- A member in step has asked for the first requests of its plan. -/
theorem InStep.isPrefix (h : m.InStep t s) :
    s.requestsOf m.player.index <+: t.requests t.notes.length := by
  obtain ⟨made, asked, requests⟩ := h.requests
  rw [requests]
  rw [Asked] at asked
  split at asked
  case h_1 duration left calling =>
    obtain ⟨n, done, here, length, pitches, rfl⟩ := asked
    have nanoseconds : n.nanoseconds = duration := by
      rw [Note.nanoseconds, length, Option.getD_some]
    apply t.requests_append_prefix here
    rw [Note.fan, nanoseconds, pitches, List.map_append, h.cursor]
    exact List.prefix_append _ _
  case h_2 =>
    rw [asked, List.append_nil]
    exact t.requests_prefix_of_le h.scheduled (Nat.le_refl _)

/-- And it has when it breaks down, too. -/
theorem InStep.isPrefix_step (h : m.InStep t s) (step : m.Step config renderer s s' m') :
    s'.requestsOf m.player.index <+: t.requests t.notes.length := by
  rcases step.call_or_quiet with ⟨during, -⟩ | ⟨call, rest, during, track, left, -⟩
  · have same : s'.requestsOf m.player.index = s.requestsOf m.player.index := by
      rw [Stage.requestsOf, Stage.callsOf, during.calls]
      rfl
    rw [same]
    exact h.isPrefix
  · obtain ⟨n, done, here, fan, requests⟩ := h.left left
    have called : s'.requestsOf m.player.index =
        s.requestsOf m.player.index ++ [call.request] := by
      rw [Stage.requestsOf, Stage.callsOf, during.calls]
      simp [Stage.requestsOf, Stage.callsOf, track]
    rw [called, requests, List.append_assoc]
    apply t.requests_append_prefix here
    rw [fan]
    exact ⟨rest, by simp⟩

end Member

/-- What a track has asked for, broken or not, is the beginning of its plan. -/
theorem memberInvariant_isPrefix (setup : Setup σ) :
    MemberInvariant setup fun t s m =>
      (m.IsBroken ∨ m.InStep t s) ∧ s.requestsOf m.player.index <+: t.requests t.notes.length where
  initial calls endings := by
    refine ⟨(memberInvariant_inStep setup).initial calls endings, ?_⟩
    rw [Stage.requestsOf, Player.ofTrack, calls]
    exact List.nil_prefix
  step taken h := by
    refine ⟨(memberInvariant_inStep setup).step taken h.1, ?_⟩
    rw [taken.index]
    rcases h.1 with broken | inStep
    · exact absurd taken broken.not_step
    · exact inStep.isPrefix_step taken
  sound sounds h := by
    refine ⟨(memberInvariant_inStep setup).sound sounds h.1, ?_⟩
    obtain ⟨endings, older, fresh, -, -, rfl, rfl⟩ := sounds
    exact h.2
  frame same h := by
    refine ⟨(memberInvariant_inStep setup).frame same h.1, ?_⟩
    rw [same.requestsOf]
    exact h.2

end Playback

/-! ### Sheets -/

/-- The sheet of a text is the draft of its cells, each exchanged for its note. -/
theorem exists_origins {text : List Char} {sheet : Sheet} (h : Sheet.ofText text = .ok sheet) :
    ∃ cs ts b, readCommands text = .ok cs ∧ Draft.ofMarked (withOrigins cs) = .ok ts ∧
      sheet = Sheet.ofTracks (mapMarks (Origin.note cs) ts) ∧
      Builder.initial.run cs = .ok b := by
  obtain ⟨cs, read, made⟩ := exists_of_bind h
  obtain ⟨b, run, -⟩ := exists_of_bind made
  have draft := Builder.ofCommands_eq_ofMarked cs
  rw [made] at draft
  rcases marked : Draft.ofMarked (withOrigins cs) with e | ts
  · rw [marked] at draft
    cases draft
  · rw [marked] at draft
    refine ⟨cs, ts, b, read, marked, ?_, run⟩
    rw [← Sheet.ofTracks_draftTracks sheet]
    exact congrArg Sheet.ofTracks (Except.ok.inj draft)

/-- The drift of a playback is bounded.  The notes of a sheet that was read are those of its
cells, and each cell stands in a row of the text.  Whatever the renderer and the order of the
moves are, each request of a track is for a pitch of the note of one of these cells, behind the
pitches of all cells before it, and the first note starts at the origin; and the start of the
`k`-th note differs from the exact sum of the lengths before it, each in beats of the tempo in
force at the row of its cell, by less than `0.51 * k` nanoseconds.  Performances are such
playbacks. -/
theorem drift_is_bounded {text : List Char} {sheet : Sheet}
    (h : Sheet.ofText text = .ok sheet) :
    ∃ cs ts, readCommands text = .ok cs ∧ Draft.ofMarked (withOrigins cs) = .ok ts ∧
      sheet = Sheet.ofTracks (mapMarks (Origin.note cs) ts) ∧
      (∀ t ∈ ts, ∀ o ∈ t.2, o.IsIn cs) ∧
      ∀ (σ : Type) (setup : Setup σ),
        (∀ c, Ensemble.Reached setup sheet Ensemble.anyone c →
          ∀ i name os, ts[i]? = some (name, os) →
            ∀ p r, (c.stage.requestsOf i)[p]? = some r →
              ∃ k o j, os[k]? = some o ∧ p = pitchesBefore os k + j ∧
                o.cell.pitches[j]? = some r.frequency ∧
                (k = 0 → r.start = 0) ∧
                (1 ≤ k → |(r.start : ℚ) - exactStart cs os k * second| < 51 / 100 * k)) ∧
        ∀ n, Ensemble.Reached setup sheet Ensemble.anyone
          (Ensemble.ofPerformance ((Performance.ofSheet setup sheet).start.run n)) := by
  obtain ⟨cs, ts, b, read, marked, rfl, run⟩ := exists_origins h
  have sound := isSound_of_readCommands read
  refine ⟨cs, ts, read, marked, rfl, ?_, ?_⟩
  · exact Draft.forall_mem_ofMarked (fun m hm o ho => isIn_of_mem_withOrigins hm ho) marked
  intro σ setup
  refine ⟨?_, fun n => (Ensemble.reached_run setup _ n).free⟩
  intro c reached i name os here p r asked
  have track : (Sheet.ofTracks (mapMarks (Origin.note cs) ts)).tracks[i]? =
      some ⟨name, os.map (Origin.note cs)⟩ := by
    simp [Sheet.ofTracks, mapMarks, here]
  obtain ⟨m, -, rfl, -, plan⟩ := (memberInvariant_isPrefix setup).member reached track
  obtain ⟨rest, eq⟩ := plan
  have planned : (Track.requests ⟨name, os.map (Origin.note cs)⟩
      (os.map (Origin.note cs)).length)[p]? = some r := by
    rw [← eq, List.getElem?_append_left (List.getElem?_eq_some_iff.1 asked).1, asked]
  obtain ⟨k, n, j, earlier, note, place, pitch, start⟩ :=
    Track.exists_of_getElem?_requests (Nat.le_refl _) planned
  rw [List.length_map] at earlier
  have cell : os[k]? = some os[k] := List.getElem?_eq_getElem earlier
  obtain rfl : os[k].note cs = n := by
    rw [List.getElem?_map, cell] at note
    exact Option.some.inj note
  have before := length_requests_eq (t := ⟨name, os.map (Origin.note cs)⟩) rfl (Nat.le_of_lt earlier)
  have off := abs_start_sub_le (t := ⟨name, os.map (Origin.note cs)⟩) rfl
    (fun o => (Settings.abs_nanoseconds_sub_le (bpm_inForce sound run o.row).1
      (bpm_inForce sound run o.row).2 o.cell)) (Nat.le_of_lt earlier)
  refine ⟨k, os[k], j, cell, ?_, pitch, ?_, ?_⟩
  · rw [place, before]
  · rintro rfl
    exact start
  · intro later
    have some : (0 : ℚ) < k := Nat.cast_pos.2 later
    rw [start]
    exact off.trans_lt (mul_lt_mul_of_pos_right driftPerNote_lt some)

/-- Two notes of 60/7 seconds each, and one in another tempo. -/
def largo : List Char := "#BPM 7\nA4:q A4+C5:q\n#BPM 11\nB4:h".toList

/-- A track may be far ahead. -/
def ahead : Setup Nat where
  config := ⟨100 * second, second⟩
  renderer := Rehearsal.renderer ⟨.timed, [], [], [], none⟩
  bus := .initial
  cancelled := false
  interventions := []

/-- The third note should start at 120/7 seconds, and starts 0.86 nanoseconds before. -/
theorem drift_is_bounded_largo :
    ∃ sheet cs os k o r, Sheet.ofText largo = .ok sheet ∧ readCommands largo = .ok cs ∧
      (((Performance.ofSheet ahead sheet).start.run 0).stage.requestsOf 0)[3]? = some r ∧
      r.start = 17142857142 ∧ os[k]? = some o ∧ o.IsIn cs ∧
      |(r.start : ℚ) - exactStart cs os k * second| < 51 / 100 * k := by
  rcases read : Sheet.ofText largo with e | sheet
  · have works : (Sheet.ofText largo).isOk = true := by decide +kernel
    rw [read] at works
    cases works
  have starts : (Sheet.ofText largo).toOption.map (fun sheet => (sheet.tracks.length,
      (((Performance.ofSheet ahead sheet).start.run 0).stage.requestsOf 0)[3]?.map (·.start))) =
        some (1, some 17142857142) := by
    decide +kernel
  rw [read] at starts
  obtain ⟨one, starts⟩ := Prod.mk.inj (Option.some.inj starts)
  obtain ⟨r, asked, start⟩ := Option.map_eq_some_iff.1 starts
  obtain ⟨cs, ts, commands, -, rfl, cells, bounded⟩ := drift_is_bounded read
  obtain ⟨calls, performances⟩ := bounded Nat ahead
  obtain ⟨⟨name, os⟩, rfl⟩ : ∃ t, ts = [t] := by
    apply List.length_eq_one_iff.1
    rw [← one, Sheet.ofTracks, mapMarks, List.length_map, List.length_map]
  obtain ⟨k, o, j, cell, -, -, first, drift⟩ := calls _ (performances 0) 0 name os rfl 3 r asked
  have later : 1 ≤ k := by
    by_contra none
    have zero := first (by omega)
    rw [start] at zero
    cases zero
  exact ⟨_, cs, os, k, o, r, rfl, commands, asked, start, cell,
    cells (name, os) (by simp) o (List.mem_of_getElem? cell), drift later⟩

end SongSheet
