/-
SongSheet/Proofs/Yaml/Block.lean

The text of a document tells the document.

Nothing in a document in block style says where a part of it ends.  But the first character
of a line says what the line belongs to.  An item of a list starts with `-` and goes on with
lines that start with a space; a field of a mapping starts with neither, and goes on with
lines that start with one of the two.  So lines are cut into items, or into fields, in one
way only (`flatMap_inj_of_blocks`).  The first line also tells which of the two they are
(`Node.IsClean.exists_lines_eq`), if keys are words and no scalar looks like something else
(`Node.IsClean`).  Then the text of a document tells the document
(`Node.IsClean.eq_of_render_eq`).
-/
import SongSheet.Text.Lines
import SongSheet.Yaml.Node

namespace SongSheet

/-! ### Pieces and blocks -/

section Pieces

variable {α β : Type} {starts : β → Bool}

/-- A list is found again from its pieces put together, if its first element always is. -/
theorem flatMap_inj {f : α → List β} {as bs : List α} (some : ∀ a ∈ as, f a ≠ [])
    (some' : ∀ b ∈ bs, f b ≠ [])
    (first : ∀ a ∈ as, ∀ b ∈ bs, ∀ as' ⊆ as, ∀ bs' ⊆ bs,
      f a ++ as'.flatMap f = f b ++ bs'.flatMap f → a = b)
    (eq : as.flatMap f = bs.flatMap f) : as = bs := by
  induction as generalizing bs with
  | nil =>
      cases bs with
      | nil => rfl
      | cons b bs => simp [some' b] at eq
  | cons a as ih =>
      cases bs with
      | nil => simp [some a] at eq
      | cons b bs =>
          rw [List.flatMap_cons, List.flatMap_cons] at eq
          obtain rfl := first a List.mem_cons_self b List.mem_cons_self as
            (List.subset_cons_self a as) bs (List.subset_cons_self b bs) eq
          rw [List.forall_mem_cons] at some some'
          rw [ih some.2 some'.2 ?_ (List.append_cancel_left eq)]
          intro x hx y hy xs hxs ys hys
          exact first x (List.mem_cons_of_mem a hx) y (List.mem_cons_of_mem a hy) xs
            (List.subset_cons_of_subset a hxs) ys (List.subset_cons_of_subset a hys)

/-- A list is found again from pieces none of which starts another one. -/
theorem flatMap_injective {f : α → List β} (some : ∀ a, f a ≠ [])
    (free : ∀ a b s t, f a ++ s = f b ++ t → a = b) : Function.Injective (List.flatMap f) := by
  intro as bs eq
  apply flatMap_inj (fun a _ => some a) (fun b _ => some b) _ eq
  intro a _ b _ as' _ bs' _ same
  exact free a b _ _ same

/-- A list is found again from its images. -/
theorem map_injOn {f : α → β} {as bs : List α}
    (inj : ∀ a ∈ as, ∀ b ∈ bs, f a = f b → a = b) (eq : as.map f = bs.map f) : as = bs := by
  rw [List.map_eq_flatMap, List.map_eq_flatMap] at eq
  apply flatMap_inj (fun a _ => List.cons_ne_nil (f a) []) (fun b _ => List.cons_ne_nil (f b) [])
    _ eq
  intro a ha b hb as' _ bs' _ same
  exact inj a ha b hb (List.cons.inj same).1

/-- A line that starts a block, and lines that do not. -/
def IsBlock (starts : β → Bool) (b : List β) : Prop :=
  ∃ l ls, b = l :: ls ∧ starts l = true ∧ ∀ k ∈ ls, starts k = false

/-- A block ends where the next one starts. -/
theorem IsBlock.append_inj {b c s t : List β} (hb : IsBlock starts b) (hc : IsBlock starts c)
    (hs : s.head?.all starts = true) (ht : t.head?.all starts = true) (eq : b ++ s = c ++ t) :
    b = c ∧ s = t := by
  have cut {ls s : List β} (inside : ∀ k ∈ ls, starts k = false)
      (next : s.head?.all starts = true) : (ls ++ s).takeWhile (!starts ·) = ls := by
    rw [List.takeWhile_append_of_pos (by simpa using inside)]
    cases s with
    | nil => simp
    | cons => simp_all
  obtain ⟨l, ls, rfl, -, inside⟩ := hb
  obtain ⟨l', ls', rfl, -, inside'⟩ := hc
  rw [List.cons_append, List.cons_append, List.cons.injEq] at eq
  obtain ⟨rfl, eq⟩ := eq
  have lines : ls = ls' := by rw [← cut inside hs, eq, cut inside' ht]
  subst lines
  exact ⟨rfl, List.append_cancel_left eq⟩

theorem IsBlock.ne_nil {b : List β} (h : IsBlock starts b) : b ≠ [] := by
  obtain ⟨l, ls, rfl, -⟩ := h
  exact List.cons_ne_nil l ls

theorem IsBlock.head? {b : List β} (h : IsBlock starts b) (rest : List β) :
    (b ++ rest).head?.all starts = true := by
  obtain ⟨l, ls, rfl, start, -⟩ := h
  simpa using start

/-- Lines are cut into blocks in one way only. -/
theorem flatMap_inj_of_blocks {f : α → List β} {as bs : List α}
    (blocks : ∀ a ∈ as, IsBlock starts (f a)) (blocks' : ∀ b ∈ bs, IsBlock starts (f b))
    (inj : ∀ a ∈ as, ∀ b ∈ bs, f a = f b → a = b) (eq : as.flatMap f = bs.flatMap f) :
    as = bs := by
  have next {as : List α} (blocks : ∀ a ∈ as, IsBlock starts (f a)) :
      (as.flatMap f).head?.all starts = true := by
    cases as with
    | nil => rfl
    | cons a as => exact (blocks a List.mem_cons_self).head? _
  apply flatMap_inj (fun a ha => (blocks a ha).ne_nil) (fun b hb => (blocks' b hb).ne_nil) _ eq
  intro a ha b hb as' has bs' hbs same
  apply inj a ha b hb
  exact ((blocks a ha).append_inj (blocks' b hb) (next fun x hx => blocks x (has hx))
    (next fun y hy => blocks' y (hbs hy)) same).1

end Pieces

namespace Yaml

/-! ### Kinds of documents -/

/-- What can be told of a document from its first line. -/
inductive Kind where
  | scalar
  | noItems
  | items
  | noFields
  | fields
  deriving DecidableEq

/-- The line starts with a key and a colon. -/
def startsWithKey (l : List Char) : Bool :=
  match l.dropWhile Char.isAlpha with
  | [':'] => true
  | ':' :: ' ' :: _ => true
  | _ => false

/-- Such a line has a colon at its end or in front of a space. -/
theorem exists_eq_of_startsWithKey {l : List Char} (h : startsWithKey l = true) :
    ∃ key behind, l = key ++ ':' :: behind ∧ (behind = [] ∨ ∃ r, behind = ' ' :: r) := by
  have cut := (List.takeWhile_append_dropWhile (p := Char.isAlpha) (l := l)).symm
  rw [startsWithKey] at h
  split at h
  case h_1 eq =>
    rw [eq] at cut
    exact ⟨_, _, cut, .inl rfl⟩
  case h_2 eq =>
    rw [eq] at cut
    exact ⟨_, _, cut, .inr ⟨_, rfl⟩⟩
  case h_3 => cases h

/-- The kind of a document with this first line. -/
def Kind.ofLine (l : List Char) : Kind :=
  if startsWithKey l then fields
  else match l with
    | '-' :: ' ' :: _ => items
    | ['[', ']'] => noItems
    | ['\x7b', '\x7d'] => noFields
    | _ => scalar

namespace Node

/-- The kind of a document. -/
def kind : Node → Kind
  | scalar _ => .scalar
  | list [] => .noItems
  | list (_ :: _) => .items
  | mapping [] => .noFields
  | mapping (_ :: _) => .fields

variable {n m : Node} {key key' : List Char}

theorem listLines_eq (ns : List Node) : listLines ns = ns.flatMap (itemLines ·.lines) := by
  induction ns with
  | nil => rfl
  | cons n ns ih => rw [listLines, List.flatMap_cons, ih]

theorem mappingLines_eq (fs : List (List Char × Node)) :
    mappingLines fs = fs.flatMap fun f => fieldLines f.1 f.2 f.2.lines := by
  induction fs with
  | nil => rfl
  | cons f fs ih => rw [mappingLines, List.flatMap_cons, ih]

theorem itemLines_ne_nil {ls : List (List Char)} (some : ls ≠ []) : itemLines ls ≠ [] := by
  cases ls with
  | nil => exact absurd rfl some
  | cons => exact List.cons_ne_nil _ _

theorem fieldLines_ne_nil (key : List Char) (n : Node) (ls : List (List Char)) :
    fieldLines key n ls ≠ [] := by
  unfold fieldLines
  split
  · exact List.cons_ne_nil _ _
  · exact List.cons_ne_nil _ _
  · split <;> exact List.cons_ne_nil _ _

/-- A document has a first line. -/
theorem lines_ne_nil : (n : Node) → n.lines ≠ []
  | scalar _ | list [] | mapping [] => List.cons_ne_nil _ _
  | list (n :: ns) => by
      rw [lines, listLines]
      exact List.append_ne_nil_of_left_ne_nil (itemLines_ne_nil (lines_ne_nil n)) _
  | mapping ((key, n) :: fs) => by
      rw [lines, mappingLines]
      exact List.append_ne_nil_of_left_ne_nil (fieldLines_ne_nil key n _) _

/-! ### Items -/

/-- The line starts an item. -/
def startsItem (l : List Char) : Bool := l.head? == some '-'

/-- The lines of an item tell the lines of its document. -/
theorem map_drop_itemLines (ls : List (List Char)) : (itemLines ls).map (List.drop 2) = ls := by
  cases ls with
  | nil => rfl
  | cons l ls =>
      rw [itemLines, List.map_cons, List.map_map]
      exact congrArg _ (List.map_id ls)

theorem isBlock_itemLines (n : Node) : IsBlock startsItem (itemLines n.lines) := by
  have some := n.lines_ne_nil
  cases lines : n.lines with
  | nil => exact absurd lines some
  | cons l ls =>
      refine ⟨_, _, rfl, rfl, ?_⟩
      intro k hk
      obtain ⟨k', -, rfl⟩ := List.mem_map.1 hk
      rfl

/-! ### Fields -/

/-- The line starts a field. -/
def startsField (l : List Char) : Bool := l.head? != some '-' && l.head? != some ' '

/-- The lines of a value, by what stands behind the colon of its key and by the lines below. -/
def valueLines : List Char → List (List Char) → List (List Char)
  | ' ' :: l, _ => [l]
  | _, below => if below.head?.any (·.head? == some ' ') then below.map (List.drop 2) else below

theorem startsField_of_mem_itemLines {ls : List (List Char)} {l : List Char}
    (h : l ∈ itemLines ls) : startsField l = false := by
  cases ls with
  | nil => cases h
  | cons l' ls =>
      rcases List.mem_cons.1 h with rfl | h
      · rfl
      · obtain ⟨k, -, rfl⟩ := List.mem_map.1 h
        rfl

/-- How a document is written as the value of a field. -/
structure IsLaidOut (n : Node) (behind : List Char) (below : List (List Char)) : Prop where
  lines : ∀ key, fieldLines key n n.lines = (key ++ ':' :: behind) :: below
  apart : behind = [] ∨ ∃ l, behind = ' ' :: l
  inside : ∀ l ∈ below, startsField l = false
  value : valueLines behind below = n.lines

/-- Nested items are not indented, nested fields are, and all else stands behind the colon. -/
theorem exists_isLaidOut : (n : Node) → ∃ behind below, n.IsLaidOut behind below
  | scalar l => ⟨' ' :: l, [], fun _ => rfl, .inr ⟨l, rfl⟩, nofun, rfl⟩
  | list [] => ⟨_, [], fun _ => rfl, .inr ⟨_, rfl⟩, nofun, rfl⟩
  | mapping [] => ⟨_, [], fun _ => rfl, .inr ⟨_, rfl⟩, nofun, rfl⟩
  | list (n :: ns) => by
      have items : (list (n :: ns)).lines = (n :: ns).flatMap (itemLines ·.lines) := listLines_eq _
      refine ⟨[], (list (n :: ns)).lines, fun _ => rfl, .inl rfl, ?_, ?_⟩
      · intro l hl
        rw [items] at hl
        obtain ⟨m, -, hl⟩ := List.mem_flatMap.1 hl
        exact startsField_of_mem_itemLines hl
      · obtain ⟨l, ls, block, start, -⟩ := isBlock_itemLines n
        have first : (list (n :: ns)).lines.head? = some l := by simp [items, block]
        apply if_neg
        rw [first, Option.any_some, eq_of_beq start]
        decide
  | mapping (f :: fs) => by
      refine ⟨[], (mapping (f :: fs)).lines.map indent, fun _ => rfl, .inl rfl, ?_, ?_⟩
      · intro l hl
        obtain ⟨k, -, rfl⟩ := List.mem_map.1 hl
        rfl
      · have some := (mapping (f :: fs)).lines_ne_nil
        cases lines : (mapping (f :: fs)).lines with
        | nil => exact absurd lines some
        | cons l ls =>
            show (indent l :: ls.map indent).map (List.drop 2) = l :: ls
            rw [← List.map_cons, List.map_map]
            exact List.map_id _

/-- A key is a word. -/
def IsKey (key : List Char) : Prop := ∀ c ∈ key, c.isAlpha = true

theorem IsKey.ne_of_not_isAlpha (h : IsKey key) {c d : Char} (hc : c ∈ key)
    (hd : d.isAlpha = false) : c ≠ d := by
  rintro rfl
  rw [h c hc] at hd
  cases hd

/-- A key ends at the first colon. -/
theorem IsKey.append_inj (h : IsKey key) (h' : IsKey key') {s t : List Char}
    (eq : key ++ ':' :: s = key' ++ ':' :: t) : key = key' ∧ s = t := by
  have cut {key s : List Char} (h : IsKey key) :
      (key ++ ':' :: s).takeWhile Char.isAlpha = key := by
    rw [List.takeWhile_append_of_pos h, List.takeWhile_cons_of_neg (by decide), List.append_nil]
  have keys : key = key' := by rw [← cut h, eq, cut h']
  subst keys
  have rest := List.append_cancel_left eq
  exact ⟨rfl, (List.cons.inj rest).2⟩

theorem IsKey.startsWithKey (h : IsKey key) {behind : List Char}
    (apart : behind = [] ∨ ∃ l, behind = ' ' :: l) :
    startsWithKey (key ++ ':' :: behind) = true := by
  rw [Yaml.startsWithKey, List.dropWhile_append_of_pos h, List.dropWhile_cons_of_neg (by decide)]
  rcases apart with rfl | ⟨l, rfl⟩ <;> rfl

theorem isBlock_fieldLines (h : IsKey key) (n : Node) :
    IsBlock startsField (fieldLines key n n.lines) := by
  obtain ⟨behind, below, layout⟩ := n.exists_isLaidOut
  refine ⟨_, _, layout.lines key, ?_, layout.inside⟩
  cases key with
  | nil => rfl
  | cons c key =>
      have dash := h.ne_of_not_isAlpha List.mem_cons_self (d := '-') (by decide)
      have space := h.ne_of_not_isAlpha List.mem_cons_self (d := ' ') (by decide)
      simp [startsField, dash, space]

/-- The lines of a field tell its key and the lines of its value. -/
theorem fieldLines_inj (h : IsKey key) (h' : IsKey key')
    (eq : fieldLines key n n.lines = fieldLines key' m m.lines) :
    key = key' ∧ n.lines = m.lines := by
  obtain ⟨behind, below, layout⟩ := n.exists_isLaidOut
  obtain ⟨behind', below', layout'⟩ := m.exists_isLaidOut
  rw [layout.lines, layout'.lines, List.cons.injEq] at eq
  obtain ⟨rfl, rfl⟩ := h.append_inj h' eq.1
  obtain rfl := eq.2
  exact ⟨rfl, layout.value.symm.trans layout'.value⟩

/-! ### Documents -/

/-- Keys are words, and each scalar is one line that looks like a scalar. -/
inductive IsClean : Node → Prop
  | scalar {written : List Char} :
      Kind.ofLine written = .scalar → '\n' ∉ written → IsClean (.scalar written)
  | list {ns : List Node} : (∀ n ∈ ns, IsClean n) → IsClean (.list ns)
  | mapping {fs : List (List Char × Node)} :
      (∀ f ∈ fs, IsKey f.1) → (∀ f ∈ fs, IsClean f.2) → IsClean (.mapping fs)

theorem IsClean.list_map {α : Type} {f : α → Node} {as : List α}
    (h : ∀ a ∈ as, (f a).IsClean) : (Node.list (as.map f)).IsClean :=
  .list (List.forall_mem_map.2 h)

/-- The first line tells the kind. -/
theorem IsClean.exists_lines_eq (h : n.IsClean) :
    ∃ l ls, n.lines = l :: ls ∧ Kind.ofLine l = n.kind := by
  cases h with
  | scalar kind => exact ⟨_, [], rfl, kind⟩
  | @list ns =>
      cases ns with
      | nil => exact ⟨_, [], rfl, rfl⟩
      | cons n ns =>
          cases lines : n.lines with
          | nil => exact absurd lines n.lines_ne_nil
          | cons l ls =>
              refine ⟨'-' :: ' ' :: l, ls.map indent ++ listLines ns, ?_, rfl⟩
              rw [Node.lines, listLines, lines]
              rfl
  | @mapping fs keys =>
      cases fs with
      | nil => exact ⟨_, [], rfl, rfl⟩
      | cons f fs =>
          obtain ⟨behind, below, layout⟩ := f.2.exists_isLaidOut
          refine ⟨f.1 ++ ':' :: behind, below ++ mappingLines fs, ?_, ?_⟩
          · rw [Node.lines, mappingLines, layout.lines]
            rfl
          · have key := IsKey.startsWithKey (keys f List.mem_cons_self) layout.apart
            exact if_pos key

theorem IsClean.kind_eq (h : n.IsClean) (h' : m.IsClean) (eq : n.lines = m.lines) :
    n.kind = m.kind := by
  obtain ⟨l, ls, lines, kind⟩ := h.exists_lines_eq
  obtain ⟨l', ls', lines', kind'⟩ := h'.exists_lines_eq
  rw [lines, lines', List.cons.injEq] at eq
  rw [← kind, ← kind', eq.1]

/-- Lists of the same lines are equal, if items of the same lines are. -/
theorem list_inj {ns ms : List Node} (inj : ∀ n ∈ ns, ∀ m ∈ ms, n.lines = m.lines → n = m)
    (eq : (list ns).lines = (list ms).lines) (kinds : (list ns).kind = (list ms).kind) :
    ns = ms := by
  match ns, ms with
  | [], [] => rfl
  | [], _ :: _ | _ :: _, [] => cases kinds
  | n :: ns, m :: ms =>
      rw [lines, lines, listLines_eq, listLines_eq] at eq
      refine flatMap_inj_of_blocks (fun n _ => isBlock_itemLines n)
        (fun m _ => isBlock_itemLines m) ?_ eq
      intro n hn m hm items
      apply inj n hn m hm
      rw [← map_drop_itemLines n.lines, items, map_drop_itemLines]

/-- And so are mappings. -/
theorem mapping_inj {fs gs : List (List Char × Node)} (keys : ∀ f ∈ fs, IsKey f.1)
    (keys' : ∀ g ∈ gs, IsKey g.1)
    (inj : ∀ f ∈ fs, ∀ g ∈ gs, f.2.lines = g.2.lines → f.2 = g.2)
    (eq : (mapping fs).lines = (mapping gs).lines)
    (kinds : (mapping fs).kind = (mapping gs).kind) : fs = gs := by
  match fs, gs with
  | [], [] => rfl
  | [], _ :: _ | _ :: _, [] => cases kinds
  | f :: fs, g :: gs =>
      rw [lines, lines, mappingLines_eq, mappingLines_eq] at eq
      refine flatMap_inj_of_blocks (fun f hf => isBlock_fieldLines (keys f hf) f.2)
        (fun g hg => isBlock_fieldLines (keys' g hg) g.2) ?_ eq
      intro f hf g hg fields
      obtain ⟨key, value⟩ := fieldLines_inj (keys f hf) (keys' g hg) fields
      exact Prod.ext key (inj f hf g hg value)

/-- The lines of a document tell the document. -/
theorem IsClean.eq_of_lines_eq (h : n.IsClean) (h' : m.IsClean) (eq : n.lines = m.lines) :
    n = m := by
  have kinds := h.kind_eq h' eq
  induction h generalizing m with
  | scalar =>
      cases h' with
      | scalar => exact congrArg Node.scalar (List.singleton_inj.1 eq)
      | @list ms => cases ms <;> cases kinds
      | @mapping gs => cases gs <;> cases kinds
  | @list ns items ih =>
      cases h' with
      | scalar => cases ns <;> cases kinds
      | @list ms items' =>
          apply congrArg Node.list
          refine list_inj ?_ eq kinds
          intro n hn m hm lines
          exact ih n hn (items' m hm) lines ((items n hn).kind_eq (items' m hm) lines)
      | @mapping gs => cases ns <;> cases gs <;> cases kinds
  | @mapping fs keys values ih =>
      cases h' with
      | scalar => cases fs <;> cases kinds
      | @list ms => cases fs <;> cases ms <;> cases kinds
      | @mapping gs keys' values' =>
          apply congrArg Node.mapping
          refine mapping_inj keys keys' ?_ eq kinds
          intro f hf g hg lines
          exact ih f hf (values' g hg) lines ((values f hf).kind_eq (values' g hg) lines)

/-! ### Texts -/

theorem not_mem_itemLines {ls : List (List Char)} (h : ∀ l ∈ ls, '\n' ∉ l) :
    ∀ l ∈ itemLines ls, '\n' ∉ l := by
  cases ls with
  | nil => exact nofun
  | cons l ls => simpa [itemLines, indent] using h

theorem not_mem_fieldLines (hk : IsKey key) {ls : List (List Char)} (h : ∀ l ∈ ls, '\n' ∉ l) :
    ∀ l ∈ fieldLines key n ls, '\n' ∉ l := by
  have inKey : '\n' ∉ key := fun hc => hk.ne_of_not_isAlpha hc (by decide) rfl
  unfold fieldLines
  split
  · simpa [inKey] using h
  · simpa [inKey, indent] using h
  · split
    · simp [inKey]
    · simpa [inKey] using h

/-- No line of a document is more than one line. -/
theorem IsClean.not_mem_lines (h : n.IsClean) : ∀ l ∈ n.lines, '\n' ∉ l := by
  induction h with
  | scalar _ line => simpa [Node.lines] using line
  | @list ns _ ih =>
      cases ns with
      | nil => decide
      | cons n ns =>
          intro l hl
          rw [Node.lines, listLines_eq] at hl
          obtain ⟨m, hm, hl⟩ := List.mem_flatMap.1 hl
          exact not_mem_itemLines (ih m hm) l hl
  | @mapping fs keys _ ih =>
      cases fs with
      | nil => decide
      | cons f fs =>
          intro l hl
          rw [Node.lines, mappingLines_eq] at hl
          obtain ⟨g, hg, hl⟩ := List.mem_flatMap.1 hl
          exact not_mem_fieldLines (keys g hg) (ih g hg) l hl

/-- Lines are read as they are written. -/
theorem lines_flatMap {ls : List (List Char)} (h : ∀ l ∈ ls, '\n' ∉ l) :
    Text.lines (ls.flatMap (· ++ ['\n'])) = ls := by
  have first {l : List Char} (rest : List Char) (h : '\n' ∉ l) :
      Text.lines (l ++ '\n' :: rest) = l :: Text.lines rest := by
    induction l with
    | nil => simp [Text.addToLines]
    | cons c l ih =>
        rw [List.mem_cons, not_or] at h
        rw [List.cons_append, Text.lines_cons, ih h.2, Text.addToLines, if_neg (Ne.symm h.1)]
  induction ls with
  | nil => rfl
  | cons l ls ih =>
      rw [List.forall_mem_cons] at h
      rw [List.flatMap_cons, List.append_assoc, List.singleton_append, first _ h.1, ih h.2]

/-- The text of a document tells the document. -/
theorem IsClean.eq_of_render_eq (h : n.IsClean) (h' : m.IsClean) (eq : n.render = m.render) :
    n = m := by
  apply h.eq_of_lines_eq h'
  rw [← lines_flatMap h.not_mem_lines, ← lines_flatMap h'.not_mem_lines]
  exact congrArg Text.lines eq

end Node

end Yaml

end SongSheet
