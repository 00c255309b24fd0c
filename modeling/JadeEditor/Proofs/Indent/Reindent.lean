import JadeEditor.Proofs.Editor.Onlooker
import JadeEditor.Proofs.Editor.Reachable
import JadeEditor.Proofs.Indent.Layout

/-!
# Indenting a whole document

The loop that indents a document line by line moves the cursor, asks for the level of
the line and sets it in a group of its own. Among peaceful listeners it leaves the
lines of `layout`, announces every line that changed and nothing else, and reports
their numbers.
-/

namespace JadeEditor

set_option autoImplicit false

/-- The numbers of the lines that differ, the first of which has number `line`. -/
def differences (line : Nat) : List Text → List Text → List Nat
  | t :: ts, u :: us =>
    if u ≠ t then line :: differences (line + 1) ts us else differences (line + 1) ts us
  | _, _ => []

theorem differences_eq_filter (line : Nat) {ts us : List Text} (h : us.length = ts.length) :
    differences line ts us
      = ((List.range ts.length).filter fun i => us[i]? ≠ ts[i]?).map (line + ·) := by
  induction ts generalizing us line with
  | nil => cases us <;> rfl
  | cons t ts ih =>
    cases us with
    | nil => cases h
    | cons u us =>
      have hrest : (((List.range ts.length).map Nat.succ).filter
          fun i => (u :: us)[i]? ≠ (t :: ts)[i]?).map (line + ·)
          = differences (line + 1) ts us := by
        rw [ih (line + 1) (Nat.succ.inj h), List.filter_map, List.map_map]
        apply List.map_congr_left
        intro i _
        simp only [Function.comp_apply]
        omega
      rw [differences, List.length_cons, List.range_succ_eq_map, List.filter_cons]
      by_cases hsame : u = t
      · simp [hsame, ← hrest]
      · simp [hsame, ← hrest]

theorem margin_intCast (n : Int) : Document.margin (n : Rat) = n.toNat := by
  rw [Document.margin, Rat.floor_intCast]

namespace Document

variable {d : Document} {done ts : List Text} {t : Text}

theorem moveTo_start (h : d.lines = done ++ t :: ts) :
    d.moveTo ⟨done.length, 0⟩ = { d with cursor := ⟨done.length, 0⟩ } := by
  have hline : clamp (done.length : Int) (d.lines.length - 1) = done.length := by
    simp only [clamp, h, List.length_append, List.length_cons, Int.toNat_natCast]
    omega
  have hcolumn : ∀ high, clamp 0 high = 0 := fun high => Nat.zero_min high
  simp only [moveTo, hline, hcolumn]

theorem lines_indentLine_start (h : d.lines = done ++ t :: ts)
    (hcursor : d.cursor.line = done.length) (level : Int) :
    (d.indentLine level).lines = done ++ Line.indentTo level.toNat t :: ts := by
  have hcurrent : d.currentLine = t := by
    rw [currentLine, hcursor, h]
    simp
  simp only [indentLine, margin_intCast, hcurrent, hcursor, h]
  rw [List.set_append_right _ _ (Nat.le_refl _), Nat.sub_self, List.set_cons_zero]

/-- Indenting the first line that is not done yet. -/
theorem lines_indentLine_level (h : d.lines = done ++ t :: ts) (unit : Int) :
    let e := d.moveTo ⟨done.length, 0⟩
    (e.indentLine (e.level unit e.cursor.line : Int)).lines = done
      ++ Line.indentTo (levelUnder unit (done.filter Line.isSolid).getLast? t).toNat t :: ts := by
  intro e
  have hcursor : e.cursor.line = done.length := congrArg (·.cursor.line) (moveTo_start h)
  have hlines : e.lines = done ++ t :: ts := h
  rw [lines_indentLine_start hlines hcursor, hcursor, level_eq_levelUnder hlines]

end Document

namespace Editor

/-- At rest, with peaceful listeners only. -/
structure Idle (s : Editor) : Prop where
  depth : s.depth = 0
  dirty : s.dirty = false
  peaceful : Listening Reaction.peaceful s

theorem atomic_indentLine {s : Editor} (hs : s.Idle) (level : Rat) :
    ∃ t, atomic (indentLine level) s = .ok () t ∧ t.Idle
      ∧ t.document.lines = (s.document.indentLine level).lines
      ∧ t.version = s.version
        + if (s.document.indentLine level).lines = s.document.lines then 0 else 1 := by
  let changed := (s.document.indentLine level).lines != s.document.lines
  let inner := { s with document := s.document.indentLine level, dirty := changed }
  have hbody : indentLine level s.openGroup = .ok () { inner with depth := s.depth + 1 } := by
    rw [indentLine_in_group (Nat.succ_ne_zero _)]
    simp only [openGroup, hs.dirty, Bool.false_or]
    rfl
  obtain ⟨t, hflush, hannounced, hpeaceful⟩ :=
    flush_of_agreeable agreeable_peaceful (s := inner) hs.peaceful
  have hclose : closeGroup { inner with depth := s.depth + 1 } = .ok () t :=
    (if_pos hs.depth).trans hflush
  refine ⟨t, ?_, ⟨hannounced.depth.trans hs.depth, hannounced.dirty, hpeaceful⟩,
    hannounced.document.lines, ?_⟩
  · rw [atomic_eq, hbody, endGroup_ok, hclose]
  · rw [hannounced.version]
    by_cases hsame : (s.document.indentLine level).lines = s.document.lines
    · simp [inner, changed, hsame]
    · simp [inner, changed, hsame]

theorem indentCurrentLine_lookback {s : Editor} (hs : s.Idle) (unit : Int) :
    ∃ t, indentCurrentLine (.lookback unit) s
        = .ok (s.document.level unit s.document.cursor.line) t ∧ t.Idle
      ∧ t.document.lines
        = (s.document.indentLine (s.document.level unit s.document.cursor.line : Int)).lines
      ∧ t.version = s.version
        + if t.document.lines = s.document.lines then 0 else 1 := by
  obtain ⟨t, hatomic, hidle, hlines, hversion⟩ :=
    atomic_indentLine hs (s.document.level unit s.document.cursor.line : Int)
  refine ⟨t, ?_, hidle, hlines, hlines.symm ▸ hversion⟩
  exact Edit.bind_ok hatomic _

/-- One turn of the loop on a line that is not blank. -/
theorem indentCurrentLine_start {s : Editor} (hs : s.Idle) (unit : Int) {done ts : List Text}
    {t : Text} (hlines : s.document.lines = done ++ t :: ts) :
    let new := Line.indentTo
      (Document.levelUnder unit (done.filter Line.isSolid).getLast? t).toNat t
    ∃ level u, indentCurrentLine (.lookback unit)
        { s with document := s.document.moveTo ⟨done.length, 0⟩ } = .ok level u
      ∧ u.Idle ∧ u.document.lines = done ++ new :: ts
      ∧ u.version = s.version + if new = t then 0 else 1 := by
  intro new
  have hidle : { s with document := s.document.moveTo ⟨done.length, 0⟩ }.Idle :=
    ⟨hs.depth, hs.dirty, hs.peaceful⟩
  obtain ⟨u, hindent, hu, hafter, hversion⟩ := indentCurrentLine_lookback hidle unit
  have hnew : u.document.lines = done ++ new :: ts :=
    hafter.trans (Document.lines_indentLine_level hlines unit)
  refine ⟨_, u, hindent, hu, hnew, ?_⟩
  rw [hversion, hnew, Document.lines_moveTo, hlines]
  simp

theorem reindentFrom_solid {indenter : Indenter Failure} {line : Nat} {t : Text} {ts : List Text}
    {s u v : Editor} {level : Int} {more : List Nat} (hsolid : ¬ Line.isBlank t = true)
    (hindent : indentCurrentLine indenter { s with document := s.document.moveTo ⟨line, 0⟩ }
      = .ok level u)
    (hrest : reindentFrom indenter (line + 1) ts u = .ok more v) :
    reindentFrom indenter line (t :: ts) s
      = .ok (if u.document.lineText line ≠ t then line :: more else more) v := by
  rw [reindentFrom, if_neg hsolid]
  have hcursor : setCursor ⟨line, 0⟩ s
      = .ok () { s with document := s.document.moveTo ⟨line, 0⟩ } := rfl
  rw [Edit.bind_ok hcursor, Edit.bind_ok hindent]
  exact Edit.bind_ok hrest _

/-- The loop, part way through: the lines above are done and those below still as given. -/
theorem reindentFrom_lookback (unit : Int) (done ts : List Text) (line : Nat)
    (above : Option Text) (hline : done.length = line)
    (habove : (done.filter Line.isSolid).getLast? = above) {s : Editor} (hs : s.Idle)
    (hlines : s.document.lines = done ++ ts) :
    let changed := differences line ts (layout unit above ts)
    ∃ t, reindentFrom (.lookback unit) line ts s = .ok changed t ∧ t.Idle
      ∧ t.document.lines = done ++ layout unit above ts
      ∧ t.version = s.version + changed.length := by
  induction ts generalizing done line above s with
  | nil => exact ⟨s, rfl, hs, hlines, rfl⟩
  | cons t ts ih =>
    by_cases hblank : Line.isBlank t = true
    · have hnot : ¬ Line.isSolid t = true := by simp [Line.isSolid, hblank]
      obtain ⟨u, hrun, hidle, hdone, hversion⟩ := ih (done ++ [t]) (line + 1) above
        (by simp [hline]) (by simp [List.filter_cons_of_neg hnot, habove]) hs
        (by simpa using hlines)
      simp only [layout, if_pos hblank, differences, ne_eq, not_true_eq_false, if_false]
      refine ⟨u, ?_, hidle, by simpa using hdone, hversion⟩
      rw [reindentFrom, if_pos hblank]
      exact hrun
    · have hyes : Line.isSolid t = true := by simpa [Line.isSolid] using hblank
      obtain ⟨level, u, hindent, hu, hnew, huversion⟩ := indentCurrentLine_start hs unit hlines
      rw [habove] at hnew huversion
      rw [hline] at hindent
      obtain ⟨v, hrun, hidle, hdone, hversion⟩ := ih
        (done ++ [Line.indentTo (Document.levelUnder unit above t).toNat t]) (line + 1)
        (some (Line.indentTo (Document.levelUnder unit above t).toNat t))
        (by simp [hline]) (by simp [hyes]) hu (by simpa using hnew)
      have htext : u.document.lineText line
          = Line.indentTo (Document.levelUnder unit above t).toNat t := by
        rw [Document.lineText_natCast, hnew, ← hline]
        simp
      simp only [layout, if_neg hblank, differences]
      refine ⟨v, ?_, hidle, by simpa using hdone, ?_⟩
      · rw [reindentFrom_solid hblank hindent hrun, htext]
      · rw [hversion, huversion]
        by_cases hsame : Line.indentTo (Document.levelUnder unit above t).toNat t = t
        · rw [if_pos hsame, if_neg (not_not_intro hsame), Nat.add_zero]
        · rw [if_neg hsame, if_pos hsame, List.length_cons]
          omega

/-- Indenting a document at rest among peaceful listeners lays its lines out, and
announces and reports the lines that changed. -/
theorem reindent_lookback (unit : Int) {s : Editor} (hs : s.Idle) :
    let new := layout unit none s.document.lines
    let changed := differences 0 s.document.lines new
    ∃ t, reindent (.lookback unit) s = .ok ⟨new, changed⟩ t ∧ t.Idle ∧ t.document.lines = new
      ∧ t.version = s.version + changed.length := by
  obtain ⟨t, hrun, hidle, hlines, hversion⟩ := reindentFrom_lookback unit [] s.document.lines
    0 none rfl rfl hs rfl
  refine ⟨t, ?_, hidle, hlines, hversion⟩
  rw [List.nil_append] at hlines
  rw [← hlines]
  rw [← hlines] at hrun
  exact Edit.bind_ok hrun _

/-! ## The loop among onlookers

Inside a group the loop calls no listener at all, and elsewhere it may be cut short by one
that refuses. Where it does come to its end, the lines are laid out all the same.
-/

section Facing

variable {free : Bool} {Q : Reaction → Bool} {s : Editor}

theorem closeGroup_succeeds (hQ : Agreeable free Q) (hs : s.depth - 1 = 0 → Listening Q s) :
    ∃ t, closeGroup s = .ok () t := by
  rw [closeGroup_eq]
  by_cases houter : s.depth - 1 = 0
  · rw [if_pos houter]
    obtain ⟨t, hflush, -⟩ := flush_of_agreeable hQ (s := { s with depth := s.depth - 1 }) (hs houter)
    exact ⟨t, hflush⟩
  · rw [if_neg houter]
    exact ⟨_, rfl⟩

theorem exists_indentLine_openGroup (hs : Facing Q s) (level : Rat) :
    ∃ t, indentLine level s.openGroup = .ok () t ∧ t.document = s.document.indentLine level
      ∧ (t.depth - 1 = 0 → Listening Q t) :=
  ⟨_, indentLine_in_group (Nat.succ_ne_zero _) level, rfl, hs⟩

theorem atomic_indentLine_facing (hQ : Onlooking free Q) (hs : Facing Q s) (level : Rat) :
    (s.document.indentLine level).Alike free ((atomic (indentLine level)).after s).document
      ∧ Facing Q ((atomic (indentLine level)).after s) := by
  obtain ⟨inner, hbody, hdocument, hlistening⟩ := exists_indentLine_openGroup hs level
  rw [Edit.after, atomic_eq, finalEditor_endGroup, hbody, ← hdocument]
  exact closeGroup_facing hQ hlistening

theorem atomic_indentLine_succeeds (hQ : Agreeable free Q) (hs : Facing Q s) (level : Rat) :
    ∃ t, atomic (indentLine level) s = .ok () t := by
  obtain ⟨inner, hbody, -, hlistening⟩ := exists_indentLine_openGroup hs level
  obtain ⟨t, hclose⟩ := closeGroup_succeeds hQ hlistening
  refine ⟨t, ?_⟩
  rw [atomic_eq, hbody, endGroup_ok, hclose]

theorem indentCurrentLine_eq (unit : Int) (s : Editor) :
    indentCurrentLine (.lookback unit) s
      = (atomic (indentLine (s.document.level unit s.document.cursor.line : Int))
        >>= fun _ => pure (s.document.level unit s.document.cursor.line)) s := rfl

theorem indentCurrentLine_facing (hQ : Onlooking free Q) (hs : Facing Q s) (unit : Int)
    {level : Int} {u : Editor} (hrun : indentCurrentLine (.lookback unit) s = .ok level u) :
    Facing Q u ∧ (s.document.indentLine
      (s.document.level unit s.document.cursor.line : Int)).Alike free u.document := by
  rw [indentCurrentLine_eq] at hrun
  obtain ⟨_, v, hatomic, hreturn⟩ := Edit.exists_of_bind_ok hrun
  cases hreturn
  obtain ⟨halike, hfacing⟩ := atomic_indentLine_facing hQ hs
    (s.document.level unit s.document.cursor.line : Int)
  unfold Edit.after at halike hfacing
  rw [hatomic] at halike hfacing
  exact ⟨hfacing, halike⟩

theorem indentCurrentLine_succeeds (hQ : Agreeable free Q) (hs : Facing Q s) (unit : Int) :
    ∃ u, indentCurrentLine (.lookback unit) s
      = .ok (s.document.level unit s.document.cursor.line) u := by
  obtain ⟨u, hatomic⟩ := atomic_indentLine_succeeds hQ hs
    (s.document.level unit s.document.cursor.line : Int)
  rw [indentCurrentLine_eq]
  exact ⟨u, Edit.bind_ok hatomic _⟩

theorem exists_of_reindentFrom_solid {indenter : Indenter Failure} {line : Nat} {t : Text}
    {ts : List Text} {changed : List Nat} {u : Editor} (hsolid : ¬ Line.isBlank t = true)
    (h : reindentFrom indenter line (t :: ts) s = .ok changed u) :
    ∃ level v more, indentCurrentLine indenter
        { s with document := s.document.moveTo ⟨line, 0⟩ } = .ok level v
      ∧ reindentFrom indenter (line + 1) ts v = .ok more u := by
  rw [reindentFrom, if_neg hsolid] at h
  obtain ⟨_, _, hcursor, hafter⟩ := Edit.exists_of_bind_ok h
  cases hcursor
  obtain ⟨level, v, hindent, hafter⟩ := Edit.exists_of_bind_ok hafter
  obtain ⟨_, _, hget, hafter⟩ := Edit.exists_of_bind_ok hafter
  cases hget
  obtain ⟨more, w, hmore, hreturn⟩ := Edit.exists_of_bind_ok hafter
  cases hreturn
  exact ⟨level, v, more, hindent, hmore⟩

/-- The loop, part way through, if it comes to its end. -/
theorem reindentFrom_lines (hQ : Onlooking free Q) (unit : Int) (done ts : List Text) (line : Nat)
    (above : Option Text) (hline : done.length = line)
    (habove : (done.filter Line.isSolid).getLast? = above) (hs : Facing Q s)
    (hlines : s.document.lines = done ++ ts) {changed : List Nat} {u : Editor}
    (hrun : reindentFrom (.lookback unit) line ts s = .ok changed u) :
    u.document.lines = done ++ layout unit above ts := by
  induction ts generalizing done line above s changed with
  | nil =>
    cases hrun
    exact hlines
  | cons t ts ih =>
    by_cases hblank : Line.isBlank t = true
    · have hnot : ¬ Line.isSolid t = true := by simp [Line.isSolid, hblank]
      rw [reindentFrom, if_pos hblank] at hrun
      have hrest := ih (done ++ [t]) (line + 1) above (by simp [hline])
        (by simp [List.filter_cons_of_neg hnot, habove]) hs (by simpa using hlines) hrun
      simpa [layout, hblank] using hrest
    · have hyes : Line.isSolid t = true := by simpa [Line.isSolid] using hblank
      obtain ⟨level, v, more, hindent, hmore⟩ := exists_of_reindentFrom_solid hblank hrun
      obtain ⟨hfacing, halike⟩ := indentCurrentLine_facing hQ
        (s := { s with document := s.document.moveTo ⟨line, 0⟩ }) hs unit hindent
      have hlevel := Document.lines_indentLine_level hlines unit
      rw [hline, habove] at hlevel
      have hnew := halike.lines.trans hlevel
      have hrest := ih (done ++ [Line.indentTo (Document.levelUnder unit above t).toNat t])
        (line + 1) (some (Line.indentTo (Document.levelUnder unit above t).toNat t))
        (by simp [hline]) (by simp [hyes]) hfacing (by simpa using hnew) hmore
      simpa [layout, hblank] using hrest

theorem reindentFrom_succeeds (hQ : Agreeable free Q) (unit : Int) (ts : List Text) (line : Nat)
    (hs : Facing Q s) :
    ∃ changed u, reindentFrom (.lookback unit) line ts s = .ok changed u := by
  induction ts generalizing line s with
  | nil => exact ⟨[], s, rfl⟩
  | cons t ts ih =>
    by_cases hblank : Line.isBlank t = true
    · rw [reindentFrom, if_pos hblank]
      exact ih (line + 1) hs
    · obtain ⟨u, hindent⟩ := indentCurrentLine_succeeds hQ
        (s := { s with document := s.document.moveTo ⟨line, 0⟩ }) hs unit
      have hu := (indentCurrentLine_facing hQ.toOnlooking
        (s := { s with document := s.document.moveTo ⟨line, 0⟩ }) hs unit hindent).1
      obtain ⟨more, v, hrest⟩ := ih (line + 1) hu
      exact ⟨_, v, reindentFrom_solid hblank hindent hrest⟩

theorem reindent_lines (hQ : Onlooking free Q) (hs : Facing Q s) {unit : Int} {r : Reindented}
    {t : Editor} (h : reindent (.lookback unit) s = .ok r t) :
    t.document.lines = layout unit none s.document.lines := by
  obtain ⟨changed, u, hrun, hreturn⟩ := Edit.exists_of_bind_ok
    (x := reindentFrom (.lookback unit) 0 s.document.lines) h
  cases hreturn
  exact reindentFrom_lines hQ unit [] s.document.lines 0 none rfl rfl hs rfl hrun

theorem reindent_succeeds (hQ : Agreeable free Q) (hs : Facing Q s) (unit : Int) :
    ∃ r t, reindent (.lookback unit) s = .ok r t := by
  obtain ⟨changed, t, hrun⟩ := reindentFrom_succeeds hQ unit s.document.lines 0 hs
  exact ⟨_, t, Edit.bind_ok hrun _⟩

end Facing

end Editor

/-- Indenting every line, in closed form. Of the given lines those that are not blank get
a margin of a depth times the unit, the depth being counted on the given lines, and the
others stay; the lines that differ are reported, and each is one announcement. -/
theorem reindent_closed_form {s : Editor} (hs : s.Reachable) (hdepth : s.depth = 0)
    (hpeaceful : s.Listening Reaction.peaceful) (unit : Nat) :
    let given := s.document.lines
    let solid := given.filter Line.isSolid
    ∃ (r : Reindented) (t : Editor), Editor.reindent (.lookback unit) s = .ok r t
      ∧ r.lines = t.document.lines
      ∧ t.document.lines.length = given.length
      ∧ (∀ (i : Nat) (line : Text), given[i]? = some line →
        t.document.lines[i]? = some (if Line.isBlank line then line
          else Text.spaces (unit * depthOf solid ((given.take i).countP Line.isSolid))
            ++ Line.body line))
      ∧ (∀ k, depthOf (solid.map Line.body) k = depthOf solid k)
      ∧ r.changed = (List.range given.length).filter (fun i => t.document.lines[i]? ≠ given[i]?)
      ∧ t.version = s.version + r.changed.length := by
  intro given solid
  have hidle : s.Idle := ⟨hdepth, hs.sound.settled hdepth, hpeaceful⟩
  obtain ⟨t, hrun, -, hlines, hversion⟩ := Editor.reindent_lookback unit hidle
  have hlength : (layout unit none given).length = given.length := length_layout unit none given
  refine ⟨_, t, hrun, hlines.symm, hlines ▸ hlength, ?_, depthOf_map_body solid, ?_, hversion⟩
  · intro i line hline
    have hstart : Stands unit solid none 0 := rfl
    have hclosed := getElem?_layout hstart (List.drop_zero (l := solid)) hline
    rw [hlines, hclosed, Nat.zero_add, Line.indentTo]
  · rw [hlines, differences_eq_filter 0 hlength]
    simp only [Nat.zero_add, List.map_id']
    rfl

/-- A block under a listener that moves the cursor: its body moves to the first level. -/
theorem reindent_block :
    let d := Document.ofLines [utf16 "\x7b", utf16 "\tx", utf16 "\x7d"]
    let s := (Editor.ofDocument d).subscribe [] { turns := [.stroke (.moveTo ⟨2, 1⟩) .done] }
    ∃ (r : Reindented) (t : Editor), Editor.reindent (.lookback 2) s = .ok r t
      ∧ t.document.lines[1]? = some (utf16 "  x") ∧ t.version = 0 + r.changed.length := by
  intro d s
  have hs : s.Reachable := .subscribe (.start _) [] _
  have hpeaceful : s.Listening Reaction.peaceful :=
    ((Editor.listening_ofDocument _ _).subscribe _ rfl)
  obtain ⟨r, t, hrun, -, -, hlines, -, -, hversion⟩ := reindent_closed_form hs rfl hpeaceful 2
  exact ⟨r, t, hrun, (hlines 1 (utf16 "\tx") rfl).trans (by decide), hversion⟩

end JadeEditor
