import JadeEditor.Proofs.Line.Margin
import JadeEditor.Structure.Indent

/-!
# The layout of lines

Indenting the lines of a document from top to bottom, as a function of the lines
alone: every line that is not blank gets its level from the nearest such line above
it as that one stands by then. The level turns out to be a depth times the unit, and
the depth depends on the bodies of the given lines only.
-/

namespace JadeEditor

set_option autoImplicit false

def Line.isSolid (t : Text) : Bool := !Line.isBlank t

@[simp] theorem Line.isSolid_indentTo (n : Nat) (t : Text) :
    Line.isSolid (Line.indentTo n t) = Line.isSolid t := by
  rw [Line.isSolid, Line.isBlank_indentTo, Line.isSolid]

/-! ## The line above -/

theorem lastIndex?_eq_none {α : Type} {p : α → Bool} {as : List α} (h : lastIndex? p as = none) :
    as.filter p = [] := by
  induction as with
  | nil => rfl
  | cons a as ih =>
    rw [lastIndex?] at h
    cases hlast : lastIndex? p as with
    | some i => simp [hlast] at h
    | none =>
      have ha : ¬ p a = true := by simpa [hlast] using h
      rw [List.filter_cons_of_neg ha, ih hlast]

theorem lastIndex?_eq_some {α : Type} {p : α → Bool} {as : List α} {i : Nat}
    (h : lastIndex? p as = some i) : ∃ a, as[i]? = some a ∧ (as.filter p).getLast? = some a := by
  induction as generalizing i with
  | nil => cases h
  | cons a as ih =>
    rw [lastIndex?] at h
    cases hlast : lastIndex? p as with
    | some j =>
      obtain ⟨b, hb, hfilter⟩ := ih hlast
      obtain rfl : j + 1 = i := by simpa [hlast] using h
      refine ⟨b, hb, ?_⟩
      rw [List.filter_cons]
      split
      · rw [List.getLast?_cons, hfilter]
        rfl
      · exact hfilter
    | none =>
      obtain ⟨ha, rfl⟩ : p a = true ∧ 0 = i := by simpa [hlast] using h
      exact ⟨a, rfl, by rw [List.filter_cons_of_pos ha, lastIndex?_eq_none hlast]; rfl⟩

namespace Document

/-- The level of a line below `above`, the nearest line that is not blank. -/
def levelUnder (unit : Int) (above : Option Text) (t : Text) : Int :=
  match above with
  | none => 0
  | some a =>
    let base : Int := Line.indentation a
    let inner := if Line.opensBlock a then base + unit else base
    if Line.closesBlock t then max 0 (inner - unit) else inner

/-- The level does not depend on the margin the line has. -/
@[simp] theorem levelUnder_indentTo (unit : Int) (above : Option Text) (n : Nat) (t : Text) :
    levelUnder unit above (Line.indentTo n t) = levelUnder unit above t := by
  unfold levelUnder
  rw [Line.closesBlock_indentTo]

@[simp] theorem lineText_natCast (d : Document) (line : Nat) :
    d.lineText line = d.lines.getD line [] := by
  have hnot : ¬ (line : Int) < 0 := by omega
  rw [lineText, if_neg hnot, Int.toNat_natCast]

theorem level_eq_levelUnder {d : Document} {done rest : List Text} {t : Text}
    (h : d.lines = done ++ t :: rest) (unit : Int) :
    d.level unit done.length = levelUnder unit (done.filter Line.isSolid).getLast? t := by
  have hprevious : d.previousNonBlank? done.length = lastIndex? Line.isSolid done := by
    rw [previousNonBlank?, h, Int.toNat_natCast, List.take_left]
    rfl
  have hline : d.lineText done.length = t := by
    rw [lineText_natCast, h]
    simp
  unfold level levelUnder
  rw [hprevious, hline]
  cases hlast : lastIndex? Line.isSolid done with
  | none => rw [lastIndex?_eq_none hlast]; rfl
  | some i =>
    obtain ⟨a, ha, habove⟩ := lastIndex?_eq_some hlast
    have hi : i < done.length := (List.getElem?_eq_some_iff.mp ha).1
    have htext : d.lineText i = a := by
      rw [lineText_natCast, h, List.getD_eq_getElem?_getD, List.getElem?_append_left hi, ha]
      rfl
    rw [habove]
    simp only [htext]

end Document

/-! ## All lines -/

open Document

/-- The lines once they are indented from top to bottom. `above` is the nearest line
above them that is not blank. -/
def layout (unit : Int) (above : Option Text) : List Text → List Text
  | [] => []
  | t :: ts =>
    if Line.isBlank t then t :: layout unit above ts
    else
      let new := Line.indentTo (levelUnder unit above t).toNat t
      new :: layout unit (some new) ts

/-- The depth of the line number `k` of lines none of which is blank: one more behind a
line that opens a block, one less for a line that closes one, and never below zero. -/
def depthOf (solid : List Text) : Nat → Nat
  | 0 => 0
  | k + 1 =>
    depthOf solid k + (Line.opensBlock (solid.getD k [])).toNat
      - (Line.closesBlock (solid.getD (k + 1) [])).toNat

@[simp] theorem length_layout (unit : Int) (above : Option Text) (ts : List Text) :
    (layout unit above ts).length = ts.length := by
  induction ts generalizing above with
  | nil => rfl
  | cons t ts ih =>
    rw [layout]
    split <;> simp [ih]

/-- The depth is read off the bodies, whatever the margins are. -/
theorem depthOf_map_body (solid : List Text) (k : Nat) :
    depthOf (solid.map Line.body) k = depthOf solid k := by
  have hbody : ∀ i, (solid.map Line.body).getD i [] = Line.body (solid.getD i []) := by
    intro i
    rw [List.getD_eq_getElem?_getD, List.getElem?_map, List.getD_eq_getElem?_getD]
    cases solid[i]? <;> rfl
  induction k with
  | zero => rfl
  | succ k ih =>
    rw [depthOf, depthOf, ih, hbody, hbody, Line.opensBlock_body, Line.closesBlock_body]

theorem levelUnder_some {unit depth : Nat} {a : Text}
    (h : Line.indentation a = unit * depth) (t : Text) :
    levelUnder unit (some a) t
      = (unit * (depth + (Line.opensBlock a).toNat - (Line.closesBlock t).toNat) : Nat) := by
  have hmore : unit * (depth + 1) = unit * depth + unit := Nat.mul_succ unit depth
  simp only [levelUnder, h]
  generalize Line.opensBlock a = opens
  generalize Line.closesBlock t = closes
  cases opens <;> cases closes <;>
    simp only [Bool.false_eq_true, if_true, if_false, Bool.toNat_true, Bool.toNat_false,
      Nat.add_zero, Nat.sub_zero, Nat.add_sub_cancel]
  · -- A line that closes a block under one that opens none: the floor may be reached.
    cases depth with
    | zero =>
      rw [Nat.zero_sub, Nat.mul_zero]
      omega
    | succ depth =>
      have hless : unit * (depth + 1) = unit * depth + unit := Nat.mul_succ unit depth
      rw [Nat.add_sub_cancel]
      omega
  · omega
  · omega

/-- `above` stands over the line number `k` of the lines that are not blank: it is at
the depth of the one before and opens a block if that one does. -/
def Stands (unit : Nat) (solid : List Text) (above : Option Text) : Nat → Prop
  | 0 => above = none
  | k + 1 => ∃ a, above = some a ∧ Line.indentation a = unit * depthOf solid k
      ∧ Line.opensBlock a = Line.opensBlock (solid.getD k [])

theorem Stands.levelUnder {unit : Nat} {solid : List Text} {above : Option Text} {k : Nat}
    (h : Stands unit solid above k) :
    Document.levelUnder unit above (solid.getD k []) = (unit * depthOf solid k : Nat) := by
  cases k with
  | zero =>
    obtain rfl : above = none := h
    simp [Document.levelUnder, depthOf]
  | succ k =>
    obtain ⟨a, rfl, hindentation, hopens⟩ := h
    rw [levelUnder_some hindentation, hopens]
    rfl

theorem getElem?_layout {unit : Nat} {solid : List Text} {above : Option Text} {k : Nat}
    (h : Stands unit solid above k) {ts : List Text}
    (hsolid : solid.drop k = ts.filter Line.isSolid) {i : Nat} {t : Text} (ht : ts[i]? = some t) :
    (layout unit above ts)[i]? = some (if Line.isBlank t then t
      else Line.indentTo (unit * depthOf solid (k + (ts.take i).countP Line.isSolid)) t) := by
  induction ts generalizing above k i with
  | nil => simp at ht
  | cons u us ih =>
    rw [layout]
    by_cases hblank : Line.isBlank u = true
    · have hnot : ¬ Line.isSolid u = true := by simp [Line.isSolid, hblank]
      rw [if_pos hblank]
      rw [List.filter_cons_of_neg hnot] at hsolid
      cases i with
      | zero =>
        obtain rfl : u = t := by simpa using ht
        simp [hblank]
      | succ i =>
        have hrest := ih h hsolid (i := i) (by simpa using ht)
        simpa [List.countP_cons_of_neg hnot] using hrest
    · have hyes : Line.isSolid u = true := by simpa [Line.isSolid] using hblank
      rw [if_neg hblank]
      rw [List.filter_cons_of_pos hyes] at hsolid
      have hu : solid.getD k [] = u := by
        have hfirst := congrArg List.head? hsolid
        rw [List.head?_drop, List.head?_cons] at hfirst
        rw [List.getD_eq_getElem?_getD, hfirst, Option.getD_some]
      have hlevel := h.levelUnder
      rw [hu] at hlevel
      have hnext : Stands unit solid (some (Line.indentTo (unit * depthOf solid k) u)) (k + 1) :=
        ⟨_, rfl, Line.indentation_indentTo _ _, by rw [hu, Line.opensBlock_indentTo]⟩
      rw [hlevel, Int.toNat_natCast]
      cases i with
      | zero =>
        obtain rfl : u = t := by simpa using ht
        simp [hblank]
      | succ i =>
        have hdrop : solid.drop (k + 1) = us.filter Line.isSolid := by
          rw [← List.tail_drop, hsolid, List.tail_cons]
        have hrest := ih hnext hdrop (i := i) (by simpa using ht)
        have hcount : k + ((us.take i).countP Line.isSolid + 1)
            = k + 1 + (us.take i).countP Line.isSolid := by omega
        rw [List.take_succ_cons, List.countP_cons_of_pos hyes, List.getElem?_cons_succ, hrest,
          hcount]

end JadeEditor
