/-
SongSheet/Proofs/Sheet/LoopLimit.lean

How large a sheet under construction can become.

A loop is closed if the notes it leaves on its target are no more than the limit, and the
target has exactly that many then (`Builder.closeLoop`).  A machine computes that number in
words, and refuses the loop as well if a word is too small for it (`Builder.closeLoopIn`);
with words of 32 bits or more that makes no difference, since the limit is far below.  Only
rows go past the limit, and so each list of notes is at most as long as the limit and all
rows together (`Builder.length_le_of_run`).
-/
import SongSheet.Proofs.Sheet.Nesting

namespace SongSheet

open SheetError

/-! ### Words -/

/-- A number that fits in a word of `w` bits. -/
def checked (w n : Nat) : Option Nat := if n < Nat.pow 2 w then some n else none

namespace Builder

variable {b b' : Builder} {l : OpenLoop} {ls : List OpenLoop} {ns : List Note} {w line : Nat}

/-- The notes on a target after so many have been added `count` times, computed in words and
refused above the limit. -/
def totalIn (w added count onto : Nat) : Option Nat :=
  ((checked w (added * (count % Nat.pow 2 w))).bind fun n =>
    checked w (n + onto)).filter (· ≤ noteLimit)

/-- Closes the innermost loop, with numbers in words.  Notes are added in one go after the other,
and none if the loop is empty. -/
def closeLoopIn (w : Nat) (b : Builder) (line : Nat) : Except SheetError Builder :=
  match b.loops with
  | [] => .error ⟨line, .unmatchedEndLoop⟩
  | l :: ls =>
      let outer := { b with loops := ls }
      match outer.target with
      | none => .error ⟨line, .undeclaredTrack b.active⟩
      | some notes =>
          match totalIn w l.notes.length l.count notes.length with
          | none => .error ⟨l.line, .loopTooLarge noteLimit⟩
          | some _ =>
              if l.notes.isEmpty then .ok outer
              else outer.append line (List.replicate l.count l.notes).flatten

/-- Numbers up to the limit fit in a word of 32 bits. -/
theorem noteLimit_lt (wide : 32 ≤ w) : noteLimit < Nat.pow 2 w :=
  Nat.lt_of_lt_of_le (by decide) (Nat.pow_le_pow_right (by decide) wide)

/-- In words that are wide enough for the count, the total is that of whole numbers. -/
theorem totalIn_eq (wide : 32 ≤ w) {added count onto : Nat}
    (small : count ≤ Command.largestNumber) : totalIn w added count onto =
      if added * count + onto ≤ noteLimit then some (added * count + onto) else none := by
  have limit := noteLimit_lt wide
  have fits : count < Nat.pow 2 w :=
    Nat.lt_of_le_of_lt small (Nat.lt_of_lt_of_le (by decide)
      (Nat.pow_le_pow_right (by decide) wide))
  rw [totalIn, Nat.mod_eq_of_lt fits, checked]
  by_cases product : added * count < Nat.pow 2 w
  · rw [if_pos product, Option.bind_some, checked]
    by_cases sum : added * count + onto < Nat.pow 2 w
    · rw [if_pos sum, Option.filter_some]
      simp only [decide_eq_true_eq]
    · rw [if_neg sum, if_neg (by omega)]
      rfl
  · rw [if_neg product, if_neg (by omega)]
    rfl

theorem updateTrack_append_nil {name : String} {t : Track} {ts : List Track}
    (found : ts.find? (·.name = name) = some t) : updateTrack name (· ++ []) ts = some ts := by
  induction ts with
  | nil => cases found
  | cons u ts ih =>
      rw [updateTrack]
      by_cases h : u.name = name
      · rw [if_pos h, List.append_nil]
      · rw [List.find?_cons_of_neg (by simpa using h)] at found
        rw [if_neg h, ih found]
        rfl

/-- To add no notes changes nothing. -/
theorem append_nil (target : b.target = some ns) : b.append line [] = .ok b := by
  obtain ⟨settings, active, loops, tracks⟩ := b
  cases loops with
  | cons l ls => simp only [append, List.append_nil]
  | nil =>
      obtain ⟨t, found, -⟩ := Option.map_eq_some_iff.1 target
      simp only [append, updateTrack_append_nil found]

/-- With counts that can be written, a loop is closed in words as it is in whole numbers. -/
theorem closeLoopIn_eq (wide : 32 ≤ w)
    (counts : ∀ l ∈ b.loops, l.count ≤ Command.largestNumber) :
    b.closeLoopIn w line = b.closeLoop line := by
  rcases loops : b.loops with - | ⟨l, ls⟩
  · simp only [closeLoopIn, closeLoop, loops]
  · rcases target : ({ b with loops := ls } : Builder).target with - | ns
    · simp only [closeLoopIn, closeLoop, loops, target]
    · have small := counts l (loops ▸ List.mem_cons_self)
      rw [closeLoop_of_target line loops target]
      simp only [closeLoopIn, loops, target, totalIn_eq wide small]
      by_cases fits : l.notes.length * l.count + ns.length ≤ noteLimit
      · -- an empty body is not repeated at all, and adds nothing
        simp only [if_pos fits]
        split
        case isTrue empty => rw [repeated, if_pos empty, append_nil target]
        case isFalse some => rw [repeated, if_neg some]
      · simp only [if_neg fits]

/-! ### One loop -/

/-- A loop is refused if and only if it is too large for its target. -/
theorem IsDeclared.step_endLoop (h : b.IsDeclared) (loops : b.loops = l :: ls) (line : Nat) :
    ∃ ns, ({ b with loops := ls } : Builder).target = some ns ∧
      (b.step ⟨line, .endLoop⟩ = .error ⟨l.line, .loopTooLarge noteLimit⟩ ↔
        noteLimit < l.notes.length * l.count + ns.length) ∧
      (l.notes.length * l.count + ns.length ≤ noteLimit →
        ∃ b', b.step ⟨line, .endLoop⟩ = .ok b' ∧
          b'.target = some (ns ++ repeated l.count l.notes)) := by
  have declared : ({ b with loops := ls } : Builder).IsDeclared := h
  obtain ⟨ns, target⟩ := declared.exists_target
  have does := h.does_step ⟨line, .endLoop⟩
  refine ⟨ns, target, ?_⟩
  -- the end of a loop that is open does one of two things
  generalize b.step ⟨line, .endLoop⟩ = made at does
  cases does with
  | set plain => cases plain.2
  | unmatched none => cases none.symm.trans loops
  | close loops' target' small adds =>
      cases loops.symm.trans loops'
      obtain ⟨ns', found, after, -⟩ := adds.target
      obtain rfl := Option.some.inj (target.symm.trans target')
      obtain rfl := Option.some.inj (target.symm.trans found)
      exact ⟨iff_of_false nofun (Nat.not_lt_of_le small), fun _ => ⟨_, rfl, after⟩⟩
  | tooLarge loops' target' large =>
      cases loops.symm.trans loops'
      obtain rfl := Option.some.inj (target.symm.trans target')
      exact ⟨iff_of_true rfl large, fun small => absurd large (Nat.not_lt_of_le small)⟩

end Builder

/-! ### All lists of notes -/

/-- The cells of a row. -/
def Command.cells : Command → List Cell
  | .notes cells => cells
  | _ => []

/-- The number of cells in all rows. -/
def cellCount (cs : List Located) : Nat := (cs.flatMap (·.command.cells)).length

namespace Builder

variable {b b' : Builder}

/-- A command makes no list longer than the limit, apart from the cells of its row. -/
theorem Does.length_le {c : Located} {n : Nat} (h : b.Does c (.ok b')) (limit : noteLimit ≤ n)
    (before : ∀ store ∈ b.stores, store.length ≤ n) :
    ∀ store ∈ b'.stores, store.length ≤ n + c.command.cells.length := by
  intro store hs
  have old (stored : store ∈ b.stores) : store.length ≤ n + c.command.cells.length :=
    Nat.le_add_right_of_le (before store stored)
  cases h with
  | set => exact old hs
  | track =>
      rcases List.mem_append.1 hs with loop | track
      · exact old (List.mem_append_left _ loop)
      · obtain ⟨t, ht, rfl⟩ := List.mem_map.1 track
        rcases (mem_declare _ _).2 t ht with there | none
        · exact old (List.mem_append_right _ (List.mem_map_of_mem there))
        · rw [none]
          exact Nat.zero_le _
  | loop =>
      rcases List.mem_cons.1 hs with rfl | hs
      · exact Nat.zero_le _
      · exact old hs
  | notes adds =>
      obtain ⟨ns, target, -, stored⟩ := adds.target
      rcases stored store hs with hs | rfl
      · exact old hs
      · rw [List.length_append, List.length_map]
        exact Nat.add_le_add_right (before ns (mem_stores_of_target target)) _
  | close loops target small adds =>
      obtain ⟨ns, target', -, stored⟩ := adds.target
      -- only the target grows, and what it has then was compared with the limit
      rcases stored store hs with hs | rfl
      · exact old (mem_stores_of_cons loops hs)
      · obtain rfl := Option.some.inj (target.symm.trans target')
        rw [List.length_append, length_repeated]
        omega

/-- No list of notes is longer than the limit, apart from what rows add. -/
theorem length_le_of_run {cs : List Located} (run : initial.run cs = .ok b) :
    ∀ store ∈ b.stores, store.length ≤ noteLimit + cellCount cs := by
  refine (of_run (P := fun cs b => ∀ store ∈ b.stores, store.length ≤ noteLimit + cellCount cs)
    ?_ ?_ run).2
  · intro store hs
    obtain rfl : store = [] := by simpa [stores, initial, Sheet.initial, Track.empty] using hs
    exact Nat.zero_le _
  · intro cs c b b' _ before does
    have bound := does.length_le (Nat.le_add_right noteLimit (cellCount cs)) before
    rwa [Nat.add_assoc, show cellCount cs + c.command.cells.length = cellCount (cs ++ [c]) by
      simp [cellCount]] at bound

end Builder

/-! ### The limit -/

open Builder

/-- The limit on loops is exact, and bounds what is stored.  When commands have run and a loop is
open, it is the one that the brackets say.  To close it is refused, with its line, if and only
if its notes times its count and those of the target behind it are more than the limit, as
whole numbers; otherwise the target has exactly that many notes then.  With counts that can be
written, words of at least 32 bits give the same.  And no track and no open loop has more notes
than the limit and the cells of all rows that have run. -/
theorem loop_limit_exact {cs : List Located} {b : Builder}
    (run : Builder.initial.run cs = .ok b) :
    (∀ l ls line, b.loops = l :: ls →
      (∃ before between,
        cs = before ++ ⟨l.line, .loop l.count⟩ :: between ∧ Balanced between) ∧
      (∃ ns, ({ b with loops := ls } : Builder).target = some ns ∧
        (b.step ⟨line, .endLoop⟩ = .error ⟨l.line, .loopTooLarge noteLimit⟩ ↔
          noteLimit < l.notes.length * l.count + ns.length) ∧
        (l.notes.length * l.count + ns.length ≤ noteLimit → ∃ b' ns',
          b.step ⟨line, .endLoop⟩ = .ok b' ∧ b'.target = some ns' ∧
            ns'.length = l.notes.length * l.count + ns.length)) ∧
      ((∀ c ∈ cs, ∀ count, c.command = .loop count → count ≤ Command.largestNumber) →
        ∀ w, 32 ≤ w → b.closeLoopIn w line = b.step ⟨line, .endLoop⟩)) ∧
    (∀ t ∈ b.tracks, t.notes.length ≤ noteLimit + cellCount cs) ∧
    ∀ l ∈ b.loops, l.notes.length ≤ noteLimit + cellCount cs := by
  obtain ⟨declared, opened⟩ := openedBy_of_run run
  have bound := length_le_of_run run
  refine ⟨fun l ls line loops => ⟨?_, ?_, fun counts w wide => ?_⟩, fun t ht => ?_, fun l hl => ?_⟩
  · rw [openings, loops] at opened
    obtain ⟨before, between, eq, inner, -⟩ := opened
    exact ⟨before, between, eq, inner⟩
  · obtain ⟨ns, target, refused, taken⟩ := declared.step_endLoop loops line
    refine ⟨ns, target, refused, fun small => ?_⟩
    obtain ⟨b', closed, target'⟩ := taken small
    refine ⟨b', _, closed, target', ?_⟩
    rw [List.length_append, length_repeated, Nat.add_comm]
  · exact closeLoopIn_eq wide fun k hk =>
      counts k.opening (opened.mem _ (List.mem_map_of_mem hk)) k.count rfl
  · exact bound _ (List.mem_append_right _ (List.mem_map_of_mem ht))
  · exact bound _ (List.mem_append_left _ (List.mem_map_of_mem hl))

/-- Two notes, to be played four thousand million times. -/
def runaway : List Located :=
  [⟨1, .loop 4000000000⟩, ⟨2, .notes [⟨[.ofNat 440], ⟨.quarter, false⟩⟩,
    ⟨[.ofNat 220], ⟨.quarter, false⟩⟩]⟩]

/-- The product does not fit in 32 bits, and the loop is refused there as it is elsewhere. -/
theorem loop_limit_exact_runaway : ∃ b, Builder.initial.run runaway = .ok b ∧
    b.step ⟨3, .endLoop⟩ = .error ⟨1, .loopTooLarge 1000000⟩ ∧
    b.closeLoopIn 32 3 = .error ⟨1, .loopTooLarge 1000000⟩ ∧
    ∀ l ∈ b.loops, l.notes.length ≤ 1000002 := by
  rcases run : Builder.initial.run runaway with e | b
  · cases run
  · obtain ⟨close, -, bound⟩ := loop_limit_exact run
    have heads : b.loops.map (fun l => (l.notes.length, l.count, l.line)) =
        [(2, 4000000000, 1)] := by
      cases run
      rfl
    obtain ⟨l, ls, loops, eq, last⟩ := List.map_eq_cons_iff.1 heads
    obtain rfl : ls = [] := List.map_eq_nil_iff.1 last
    simp only [Prod.mk.injEq] at eq
    obtain ⟨length, count, opened⟩ := eq
    obtain ⟨-, ⟨ns, -, refused, -⟩, words⟩ := close l [] 3 loops
    have closed := refused.2 (by
      rw [length, count]
      exact Nat.lt_of_lt_of_le (by decide) (Nat.le_add_right _ ns.length))
    rw [opened] at closed
    have counts : ∀ c ∈ runaway, ∀ count, c.command = .loop count →
        count ≤ Command.largestNumber := by
      intro c hc count eq
      rcases List.mem_cons.1 hc with rfl | hc
      · cases eq
        decide
      · obtain rfl := List.mem_singleton.1 hc
        cases eq
    exact ⟨b, rfl, closed, (words counts 32 (Nat.le_refl _)).trans closed, bound⟩

end SongSheet
