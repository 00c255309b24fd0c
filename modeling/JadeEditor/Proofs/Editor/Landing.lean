import JadeEditor.Proofs.Buffer.OffsetOrder
import JadeEditor.Proofs.Editor.Reachable
import JadeEditor.Proofs.Structure.NextOpening
import JadeEditor.Proofs.Structure.Repetition

/-!
# Where the moving commands land

A travel visits places of the document only: the starts of lines that define a function, and
braces, which stand before the end of their line. The command that puts the cursor where a
travel ended therefore puts it exactly there, and that is all it does apart from logging.
-/

namespace JadeEditor

set_option autoImplicit false

/-! ## Where a walk ends -/

namespace Travel

variable {step : Position → Step} {start p : Position}

theorem walk_position {P : Position → Prop} (hstep : ∀ p q, step p = .moved q → P q)
    (hstart : P start) (hp : P p) (steps count : Nat) :
    P (walk step start steps p count).position := by
  induction count generalizing steps p with
  | zero => exact hp
  | succ count ih =>
    cases h : step p with
    | moved q =>
      rw [walk_of_moved start steps h]
      exact ih (hstep p q h) _
    | nothing =>
      rw [walk_of_nothing start steps h]
      exact hp
    | unclosed =>
      rw [walk_of_unclosed start steps h]
      exact hstart

theorem walk_done_iff (step : Position → Step) (start p : Position) (steps count : Nat) :
    (walk step start steps p count).outcome = .done
      ↔ (walk step start steps p count).steps = (steps + count : Nat) := by
  induction count generalizing steps p with
  | zero => simp [walk]
  | succ count ih =>
    cases h : step p with
    | moved q =>
      rw [walk_of_moved start steps h, ih, Nat.add_right_comm, Nat.add_assoc]
    | nothing =>
      rw [walk_of_nothing start steps h]
      simp only [reduceCtorEq, false_iff]
      omega
    | unclosed =>
      rw [walk_of_unclosed start steps h]
      simp only [reduceCtorEq, false_iff]
      omega

/-- A walk that takes its moves back, or makes none, ends where it started. -/
theorem walk_stays {steps : Nat} (hp : steps = 0 → p = start) (count : Nat)
    (h : (walk step start steps p count).outcome = .unbalanced
      ∨ (walk step start steps p count).steps = 0) :
    (walk step start steps p count).position = start := by
  induction count generalizing steps p with
  | zero =>
    rcases h with h | h
    · cases h
    · exact hp (Int.ofNat_eq_zero.mp h)
  | succ count ih =>
    cases hstep : step p with
    | moved q =>
      rw [walk_of_moved start steps hstep] at h ⊢
      exact ih (fun hzero => absurd hzero (Nat.succ_ne_zero steps)) h
    | nothing =>
      rw [walk_of_nothing start steps hstep] at h ⊢
      rcases h with h | h
      · cases h
      · exact hp (Int.ofNat_eq_zero.mp h)
    | unclosed => rw [walk_of_unclosed start steps hstep]

end Travel

/-! ## Places of a document -/

theorem Cursor.position_inj {a b : Cursor} (h : a.position = b.position) : a = b := by
  obtain ⟨line, column⟩ := a
  obtain ⟨line', column'⟩ := b
  simp only [position, Position.mk.injEq] at h
  rw [mk.injEq]
  omega

namespace Document

variable {d : Document} {p q : Position}

theorem contains_of_stepBack (h : d.stepBack p = .moved q) : d.Contains q := by
  rw [stepBack_eq] at h
  cases hlast : (d.definitionsBefore p).getLast? with
  | none =>
    rw [hlast] at h
    cases h
  | some e =>
    rw [hlast] at h
    obtain rfl : (⟨e.line, 0⟩ : Position) = q := Step.moved.inj h
    have hentry : e ∈ d.outline := (List.mem_filter.mp (List.mem_of_getLast? hlast)).1
    have hfirst := Definition.line_of_mem_collect hentry
    have hlast := Definition.line_lt_of_mem_collect hentry
    refine ⟨hfirst, ?_, Int.le_refl _, Int.natCast_nonneg _⟩
    rwa [Nat.zero_add] at hlast

theorem contains_of_stepForward (h : d.stepForward p = .moved q) : d.Contains q := by
  obtain ⟨o, hopening, hclosing⟩ := exists_of_stepForward h
  obtain ⟨-, ho, -⟩ := openingsFrom_of_nextOpening? hopening
  exact contains_of_codeAt? ((closing?_iff_closes ho).mp hclosing).brace

theorem position_moveTo (h : d.Contains p) : (d.moveTo p).cursor.position = p := by
  obtain ⟨i, column, l, hl, hcolumn, rfl⟩ := contains_iff.mp h
  have hi := (List.getElem?_eq_some_iff.mp hl).1
  have hline : clamp (i : Int) (d.lines.length - 1) = i := by
    simp only [clamp, Int.toNat_natCast]
    omega
  have htext : d.lines.getD i [] = l := by
    rw [List.getD_eq_getElem?_getD, hl, Option.getD_some]
  have hinside : clamp (column : Int) l.length = column := by
    simp only [clamp, Int.toNat_natCast]
    omega
  simp only [moveTo, hline, htext, hinside, Cursor.position]

end Document

/-! ## The commands -/

namespace Editor

/-- The editor `t` is `s` with its cursor at the place where a travel of up to `count` moves
ended, which is where it started if no move was made or all were taken back. Nothing else has
changed but the log. -/
structure Lands (s : Editor) (count : Int) (travel : Travel) (t : Editor) : Prop where
  inside : s.document.Contains travel.position
  cursor : t.document.cursor.position = travel.position
  frame : t = { s with document := ⟨s.document.lines, t.document.cursor⟩, log := t.log }
  done : travel.outcome = .done ↔ travel.steps = max 0 count
  stays : travel.outcome = .unbalanced ∨ travel.steps = 0 →
    t.document.cursor = s.document.cursor

theorem follow_lands {s : Editor} (hcursor : s.document.WellFormed) {step : Position → Step}
    (hstep : ∀ p q, step p = .moved q → s.document.Contains q) (command : Text) (count : Int) :
    let start := s.document.cursor.position
    let travel := Travel.walk step start 0 start count.toNat
    ∃ t, follow command travel s = .ok travel t ∧ Lands s count travel t := by
  intro start travel
  obtain ⟨log, hrun⟩ := follow_leaves command travel s
  have hstart := hcursor.contains_cursor
  have hinside : s.document.Contains travel.position :=
    Travel.walk_position hstep hstart hstart 0 count.toNat
  have hlanded := Document.position_moveTo hinside
  refine ⟨_, hrun, hinside, hlanded, rfl, ?_, ?_⟩
  · rw [Travel.walk_done_iff]
    simp only [travel]
    omega
  · intro hstays
    have hback : travel.position = start := Travel.walk_stays (fun _ => rfl) count.toNat hstays
    exact Cursor.position_inj (hlanded.trans hback)

end Editor

/-- With the cursor in range, the commands that move by definitions and by blocks report a place
of the document and put the cursor exactly there; they edit nothing and nobody hears of them.
As many moves as asked for are made just if the outcome says so, and the cursor stays where it
was if a block is never closed or no move is made. -/
theorem jumps_land_where_they_report {s : Editor} (hcursor : s.document.WellFormed) (count : Int) :
    let d := s.document
    (∃ t, Editor.jumpToStart count s = .ok (d.toDefinitionStart d.cursor.position count) t
        ∧ s.Lands count (d.toDefinitionStart d.cursor.position count) t)
      ∧ ∃ t, Editor.jumpToEnd count s = .ok (d.toBlockEnd d.cursor.position count) t
        ∧ s.Lands count (d.toBlockEnd d.cursor.position count) t := by
  intro d
  constructor
  · exact Editor.follow_lands hcursor (fun p q => Document.contains_of_stepBack) _ count
  · exact Editor.follow_lands hcursor (fun p q => Document.contains_of_stepForward) _ count

/-- Five moves back of which only one can be made, and two forward the second of which meets a
block that is never closed, under a listener that refuses. -/
theorem jumps_land_before_unclosed_block :
    let d : Document := ⟨[utf16 "fn a() \x7b", utf16 "\x7d", utf16 "\x7b // \x7d"], ⟨0, 3⟩⟩
    let s := (Editor.ofDocument d).subscribe [] .refuse
    (∃ travel t, Editor.jumpToStart 5 s = .ok travel t ∧ travel.outcome = .exhausted
        ∧ t.document.cursor.position = ⟨0, 0⟩ ∧ t.version = 0)
      ∧ ∃ travel t, Editor.jumpToEnd 2 s = .ok travel t ∧ travel.outcome = .unbalanced
        ∧ t.document.cursor = ⟨0, 3⟩ ∧ t.events = [] := by
  intro d s
  have hcursor : s.document.WellFormed := ⟨by decide, by decide⟩
  obtain ⟨⟨t, hback, hlands⟩, -⟩ := jumps_land_where_they_report hcursor 5
  obtain ⟨-, u, hforward, hstays⟩ := jumps_land_where_they_report hcursor 2
  refine ⟨⟨_, t, hback, by decide +kernel, ?_, ?_⟩, _, u, hforward, by decide +kernel, ?_, ?_⟩
  · exact hlands.cursor.trans (by decide +kernel)
  · rw [hlands.frame]
    rfl
  · exact hstays.stays (.inl (by decide +kernel))
  · rw [hstays.frame]
    rfl

end JadeEditor
