import JadeEditor.Line.Render
import JadeEditor.Proofs.Line.Tokens

/-!
# Rendering loses no text

Colours are escape sequences around pieces of a line and around the line breaks in
them. Whatever the rules find, the pieces of a line follow one another without gap or
overlap, so a line that is shown and then stripped of its escape sequences is the line
that was given, provided it had none of its own.
-/

namespace JadeEditor

set_option autoImplicit false

open CodeUnit

theorem CodeUnit.isDigit_ofChar {c : Char} (h : c.isDigit = true) : (ofChar c).isDigit = true := by
  have hrange : 48 ≤ c.toNat ∧ c.toNat ≤ 57 := by
    simpa [Char.isDigit, UInt32.le_iff_toNat_le] using h
  have hunit : (ofChar c).toNat = c.toNat := by
    simp only [ofChar, Nat.toUInt16, UInt16.toNat_ofNat']
    omega
  simp only [isDigit, Bool.and_eq_true, decide_eq_true_eq, UInt16.le_iff_toNat_le, hunit]
  exact hrange

theorem Text.isDigit_of_mem_ofNat {n : Nat} {c : CodeUnit} (h : c ∈ Text.ofNat n) :
    c.isDigit = true := by
  obtain ⟨d, hd, rfl⟩ := List.mem_map.mp h
  exact isDigit_ofChar (Nat.isDigit_of_mem_toDigits (by omega) (by omega) hd)

theorem Text.ofNat_ne_nil (n : Nat) : Text.ofNat n ≠ [] := by
  intro h
  exact Nat.toDigits_ne_nil (List.map_eq_nil_iff.mp h)

namespace Terminal

/-! ## Erasing escape sequences -/

/-- The length of the sequence that selects a rendition at the start of the text: escape,
bracket, digits and the letter m. -/
def renditionLength? : Text → Option Nat
  | e :: b :: t =>
    let digits := t.takeWhile isDigit
    if e = escape ∧ b = openBracket ∧ digits ≠ []
        ∧ (t.drop digits.length).head? = some (ofChar 'm') then
      some (digits.length + 3)
    else none
  | _ => none

/-- Leaves out every sequence that selects a rendition, and the next `skip` units. -/
def eraseFrom (skip : Nat) : Text → Text
  | [] => []
  | c :: t =>
    match skip with
    | k + 1 => eraseFrom k t
    | 0 =>
      match renditionLength? (c :: t) with
      | some n => eraseFrom (n - 1) t
      | none => c :: eraseFrom 0 t

def erase (t : Text) : Text := eraseFrom 0 t

theorem eraseFrom_eq_erase (skip : Nat) (t : Text) : eraseFrom skip t = erase (t.drop skip) := by
  induction t generalizing skip with
  | nil => simp [erase, eraseFrom]
  | cons c t ih =>
    cases skip with
    | zero => rfl
    | succ k => exact ih k

theorem erase_cons_of_ne {c : CodeUnit} (h : c ≠ escape) (t : Text) :
    erase (c :: t) = c :: erase t := by
  have hnone : renditionLength? (c :: t) = none := by
    cases t with
    | nil => rfl
    | cons b t => exact if_neg fun hall => h hall.1
  simp only [erase, eraseFrom, hnone]

theorem renditionLength?_selectRendition (n : Nat) (t : Text) :
    renditionLength? (selectRendition n ++ t) = some (selectRendition n).length := by
  have hdigits : (Text.ofNat n ++ ofChar 'm' :: t).takeWhile isDigit = Text.ofNat n := by
    rw [List.takeWhile_append_of_pos fun c hc => Text.isDigit_of_mem_ofNat hc,
      List.takeWhile_cons_of_neg (by decide), List.append_nil]
  simp only [selectRendition, List.cons_append, List.append_assoc, List.nil_append,
    renditionLength?, hdigits, List.drop_left, List.head?_cons]
  rw [if_pos ⟨trivial, trivial, Text.ofNat_ne_nil n, trivial⟩]
  simp

theorem erase_selectRendition_append (n : Nat) (t : Text) :
    erase (selectRendition n ++ t) = erase t := by
  have hlength := renditionLength?_selectRendition n t
  rw [selectRendition, List.cons_append] at hlength ⊢
  simp only [erase, eraseFrom, hlength]
  rw [eraseFrom_eq_erase, List.length_cons, Nat.add_sub_cancel, List.drop_left]
  rfl

/-- The text `shown` reads as `t` once its escape sequences are erased, whatever follows. -/
def Shows (shown t : Text) : Prop := ∀ rest, erase (shown ++ rest) = t ++ erase rest

theorem Shows.erase_eq {shown t : Text} (h : Shows shown t) : erase shown = t := by
  have hend := h []
  have hnil : erase [] = [] := rfl
  rwa [List.append_nil, hnil, List.append_nil] at hend

theorem Shows.append {shown t more u : Text} (h : Shows shown t) (hmore : Shows more u) :
    Shows (shown ++ more) (t ++ u) := by
  intro rest
  rw [List.append_assoc, h, hmore, List.append_assoc]

theorem shows_self {t : Text} (h : escape ∉ t) : Shows t t := by
  induction t with
  | nil => exact fun _ => rfl
  | cons c t ih =>
    intro rest
    have hc : c ≠ escape := fun heq => h (heq ▸ List.mem_cons_self)
    rw [List.cons_append, erase_cons_of_ne hc, ih fun hmem => h (List.mem_cons_of_mem c hmem)]
    rfl

theorem shows_selectRendition (n : Nat) : Shows (selectRendition n) [] :=
  erase_selectRendition_append n

/-! ## Painted texts -/

/-- Sequences put before and behind a line break are not seen. -/
theorem shows_encaseBreaks {close open_ : Text} (hclose : Shows close []) (hopen : Shows open_ [])
    {t : Text} (h : escape ∉ t) : Shows (encaseBreaks close open_ t) t := by
  have hbreak {piece shown u : Text} (hpiece : escape ∉ piece) (hshown : Shows shown u) :
      Shows (close ++ (piece ++ (open_ ++ shown))) (piece ++ u) :=
    hclose.append ((shows_self hpiece).append (hopen.append hshown))
  have hfeed : escape ∉ [lineFeed] := by decide
  fun_induction encaseBreaks close open_ t with
  | case1 c d t hreturn ih =>
    have hpiece : escape ∉ [c, d] := fun hmem => h (List.mem_append_left t hmem)
    exact hbreak hpiece (ih fun hmem => h (List.mem_append_right [c, d] hmem))
  | case2 d t hreturn ih =>
    exact hbreak hfeed (ih fun hmem => h (List.mem_cons_of_mem lineFeed hmem))
  | case3 c d t hreturn hc ih =>
    have hpiece : escape ∉ [c] := fun hmem => h (List.mem_append_left (d :: t) hmem)
    exact (shows_self hpiece).append (ih fun hmem => h (List.mem_cons_of_mem c hmem))
  | case4 =>
    have hend := hbreak hfeed (shows_self List.not_mem_nil)
    rwa [List.append_nil, List.append_nil] at hend
  | case5 c hc => exact shows_self h
  | case6 => exact shows_self h

theorem shows_paint (palette : Palette) (colour : Colour) {t : Text} (h : escape ∉ t) :
    Shows (palette.paint colour t) t := by
  cases palette with
  | plain => exact shows_self h
  | coloured =>
    have hplain : t.contains escape = false := by simpa using h
    simp only [Palette.paint, hplain]
    split
    · exact shows_self h
    · rw [if_neg Bool.false_ne_true]
      have hopen := shows_selectRendition colour.number
      have hclose := shows_selectRendition colour.resetNumber
      have hall := (hopen.append (shows_encaseBreaks hclose hopen h)).append hclose
      rwa [List.nil_append, List.append_nil] at hall

end Terminal

/-! ## Lines -/

theorem Text.slice_append_drop (t : Text) {start stop : Nat} (h : start ≤ stop) :
    t.slice start stop ++ t.drop stop = t.drop start := by
  have hcut := List.take_append_drop (stop - start) (t.drop start)
  rw [List.drop_drop, Nat.add_sub_of_le h] at hcut
  rw [slice, List.drop_take]
  exact hcut

theorem Text.slice_subset (t : Text) (start stop : Nat) : t.slice start stop ⊆ t :=
  fun _ hc => List.mem_of_mem_take (List.mem_of_mem_drop hc)

namespace Line

open Terminal

/-- A relation between shown texts and texts that joins the pieces of a line, plain or
painted, and may be put together from piece to piece. -/
structure Piecewise (palette : Palette) (line : Text) (S : Text → Text → Prop) : Prop where
  plain : ∀ t ⊆ line, S t t
  painted : ∀ colour, ∀ t ⊆ line, S (palette.paint colour t) t
  append : ∀ {shown t more u}, S shown t → S more u → S (shown ++ more) (t ++ u)

theorem piecewise_eq (line : Text) : Piecewise .plain line Eq where
  plain _ _ := rfl
  painted _ _ _ := rfl
  append h hmore := by rw [h, hmore]

theorem piecewise_shows (palette : Palette) {line : Text} (h : escape ∉ line) :
    Piecewise palette line Shows where
  plain _ ht := shows_self fun hmem => h (ht hmem)
  painted colour _ ht := shows_paint palette colour fun hmem => h (ht hmem)
  append := Shows.append

def Finder.render (palette : Palette) (finders : List Finder) (line : Text) : Text :=
  renderFrom palette line 0 (Finder.classify finders line)

section Piecewise

variable {S : Text → Text → Prop} {palette : Palette} {line : Text}

theorem Piecewise.renderFrom (h : Piecewise palette line S) {column : Nat} {tokens : List Token}
    (hcolumn : ∀ t ∈ tokens, column ≤ t.span.start)
    (hproper : ∀ t ∈ tokens, t.span.start ≤ t.span.stop)
    (hordered : tokens.Pairwise fun a b => a.span.stop ≤ b.span.start) :
    S (renderFrom palette line column tokens) (line.drop column) := by
  induction tokens generalizing column with
  | nil => exact h.plain _ fun _ hc => List.mem_of_mem_drop hc
  | cons t tokens ih =>
    obtain ⟨hnext, hlater⟩ := List.pairwise_cons.mp hordered
    have hrest := ih hnext (fun u hu => hproper u (List.mem_cons_of_mem t hu)) hlater
    have hgap := h.plain _ (line.slice_subset column t.span.start)
    have htoken := h.painted t.category.colour _ (line.slice_subset t.span.start t.span.stop)
    have hall := h.append hgap (h.append htoken hrest)
    rw [Text.slice_append_drop line (hproper t List.mem_cons_self),
      Text.slice_append_drop line (hcolumn t List.mem_cons_self), ← List.append_assoc] at hall
    exact hall

theorem Piecewise.render (h : Piecewise palette line S) (finders : List Finder) :
    S (Finder.render palette finders line) line := by
  have hapart := Finder.apart_classify finders line
  apply h.renderFrom
  · exact fun t _ => Nat.zero_le t.span.start
  · exact fun t ht => Nat.le_of_lt (hapart.inside t ht).1
  · exact Finder.pairwise_classify finders line

end Piecewise

theorem render_eq_finders (palette : Palette) (rules : List Rule) (line : Text) :
    render palette rules line = Finder.render palette (rules.map Rule.finder) line := by
  rw [render, classify_eq_finders]
  rfl

/-- Without colours a line is shown as it is, and with colours it is the line again once
the escape sequences are erased, if it has no escape of its own. So it is for any list
of rules, and for any other ways of finding spans in a line. -/
theorem rendered_line_shows_its_text (line : Text) :
    (∀ rules : List Rule, render .plain rules line = line
      ∧ (escape ∉ line → erase (render .coloured rules line) = line))
    ∧ ∀ finders : List Finder, Finder.render .plain finders line = line
      ∧ (escape ∉ line → erase (Finder.render .coloured finders line) = line) := by
  have hfinders (finders : List Finder) : Finder.render .plain finders line = line
      ∧ (escape ∉ line → erase (Finder.render .coloured finders line) = line) := by
    refine ⟨(piecewise_eq line).render finders, fun hescape => ?_⟩
    exact ((piecewise_shows .coloured hescape).render finders).erase_eq
  refine ⟨fun rules => ?_, hfinders⟩
  rw [render_eq_finders, render_eq_finders]
  exact hfinders _

/-- A header with a line break in it, coloured as a whole, and a comment behind it. -/
theorem broken_header_shows_its_text :
    let line : Text := ['f', 'n', '\n', 'f', '(', ')', ' ', '/', '/'].map ofChar
    let rules : List Rule := [⟨.functionName, .header, .whole⟩, .comment, .keyword]
    escape ∉ line ∧ (classify rules line).length = 2
      ∧ erase (render .coloured rules line) = line ∧ render .coloured rules line ≠ line := by
  intro line rules
  have hescape : escape ∉ line := by decide
  exact ⟨hescape, by decide, ((rendered_line_shows_its_text line).1 rules).2 hescape, by decide⟩

end Line

end JadeEditor
