import Mathlib.Data.List.Basic
import Mathlib.Logic.Function.Basic

/-! # A text terminal

    A screen is a grid of characters with a cursor.  A terminal has two of them, shows one,
    and interprets what is sent to it: text is put into the cells, one cell a character, and
    control sequences move the cursor, erase, hide the cursor or switch screens.

    * `feed_plain`: text without an escape character changes the screen that is shown and
      nothing else.
    * `drawn_shows`: lines that are written from the top corner, each followed by an erasure
      to its end, and an erasure of all below, are what the screen shows afterwards, whatever
      stood on it before. -/

namespace AnsiTerminal

/-- The number of rows and columns. -/
structure Size where
  rows : Nat
  cols : Nat
  deriving DecidableEq, Repr

/-- A screen.  Behind the last column the cursor waits for the next character to wrap. -/
structure Screen where
  cell : Nat → Nat → Char := fun _ _ => ' '
  row : Nat := 0
  col : Nat := 0

section Screen

variable (size : Size)

/-- To the start of the next line; at the bottom the screen scrolls. -/
def Screen.newline (s : Screen) : Screen :=
  if s.row + 1 < size.rows then { s with row := s.row + 1, col := 0 }
  else
    { s with
      cell := fun r k => if r + 1 < size.rows then s.cell (r + 1) k else ' '
      col := 0 }

/-- A character at the cursor. -/
def Screen.put (c : Char) (s : Screen) : Screen :=
  let t := if s.col < size.cols then s else s.newline size
  { t with
    cell := fun r k => if r = t.row ∧ k = t.col then c else t.cell r k
    col := t.col + 1 }

/-- The column an erasure starts at. -/
def Screen.column (s : Screen) : Nat := min s.col (size.cols - 1)

/-- From the cursor to the end of its line. -/
def Screen.eraseLine (s : Screen) : Screen :=
  { s with
    cell := fun r k => if r = s.row ∧ s.column size ≤ k then ' ' else s.cell r k }

/-- From the cursor to the end of the screen. -/
def Screen.eraseBelow (s : Screen) : Screen :=
  { s with
    cell := fun r k =>
      if s.row < r ∨ (r = s.row ∧ s.column size ≤ k) then ' ' else s.cell r k }

def Screen.clear (s : Screen) : Screen := { s with cell := fun _ _ => ' ' }

def Screen.home (s : Screen) : Screen := { s with row := 0, col := 0 }

/-- A character that is not part of a control sequence.  Line feeds also return the carriage,
    and no other control character has an effect here. -/
def Screen.type (s : Screen) (c : Char) : Screen :=
  if c = '\n' then s.newline size
  else if c = '\r' then { s with col := 0 }
  else if c.toNat < 32 then s
  else s.put size c

def Screen.write (s : Screen) (text : List Char) : Screen := text.foldl (Screen.type size) s

end Screen

/-! ## The terminal -/

/-- Where the terminal is in a control sequence. -/
inductive Mode where
  | ground
  | escape
  | csi (params : List Char)
  deriving DecidableEq, Repr

/-- Both screens, and what is shown. -/
structure Terminal where
  primary : Screen := {}
  alternate : Screen := {}
  onAlternate : Bool := false
  cursorVisible : Bool := true
  mode : Mode := .ground

/-- The escape character. -/
def esc : Char := Char.ofNat 27

/-- Change the screen that is shown. -/
def Terminal.onScreen (f : Screen → Screen) (t : Terminal) : Terminal :=
  if t.onAlternate then { t with alternate := f t.alternate }
  else { t with primary := f t.primary }

/-- A complete control sequence.  Those not listed have no effect. -/
def Terminal.control (size : Size) (params : List Char) (final : Char) (t : Terminal) :
    Terminal :=
  match final, params with
  | 'H', [] => t.onScreen Screen.home
  | 'K', [] => t.onScreen (Screen.eraseLine size)
  | 'J', ['0'] => t.onScreen (Screen.eraseBelow size)
  | 'J', ['2'] => t.onScreen Screen.clear
  | 'l', ['?', '2', '5'] => { t with cursorVisible := false }
  | 'h', ['?', '2', '5'] => { t with cursorVisible := true }
  -- the alternate screen comes up empty, and the other one is as it was left
  | 'h', ['?', '1', '0', '4', '9'] => { t with alternate := {}, onAlternate := true }
  | 'l', ['?', '1', '0', '4', '9'] => { t with onAlternate := false }
  | _, _ => t

def Terminal.step (size : Size) (t : Terminal) (c : Char) : Terminal :=
  match t.mode with
  | .ground => if c = esc then { t with mode := .escape } else t.onScreen (·.type size c)
  | .escape => if c = '[' then { t with mode := .csi [] } else { t with mode := .ground }
  | .csi params =>
      if 64 ≤ c.toNat ∧ c.toNat ≤ 126 then { t.control size params c with mode := .ground }
      else { t with mode := .csi (params ++ [c]) }

/-- Send a text. -/
def Terminal.feed (size : Size) (t : Terminal) (text : List Char) : Terminal :=
  text.foldl (Terminal.step size) t

section Feeding

variable {size : Size} {t : Terminal}

/-- A terminal takes its input character by character. -/
theorem feed_append (text more : List Char) :
    t.feed size (text ++ more) = (t.feed size text).feed size more :=
  List.foldl_append ..

/-- Drawing is no part of an escape sequence. -/
@[simp] theorem onScreen_mode (f : Screen → Screen) : (t.onScreen f).mode = t.mode := by
  rw [Terminal.onScreen]
  split <;> rfl

/-- Drawing does not change which screen is shown. -/
@[simp] theorem onScreen_onAlternate (f : Screen → Screen) :
    (t.onScreen f).onAlternate = t.onAlternate := by
  rw [Terminal.onScreen]
  split <;> rfl

/-- Drawing neither hides the cursor nor shows it. -/
@[simp] theorem onScreen_cursorVisible (f : Screen → Screen) :
    (t.onScreen f).cursorVisible = t.cursorVisible := by
  rw [Terminal.onScreen]
  split <;> rfl

/-- Two drawings in a row are on the same screen. -/
theorem onScreen_onScreen (f g : Screen → Screen) :
    (t.onScreen f).onScreen g = t.onScreen (fun s => g (f s)) := by
  cases h : t.onAlternate with
  | false => simp only [Terminal.onScreen, h, Bool.false_eq_true, if_false]
  | true => simp only [Terminal.onScreen, h, if_true]

/-- Text without an escape character. -/
def Unescaped (text : List Char) : Prop := ∀ c ∈ text, c ≠ esc

instance (text : List Char) : Decidable (Unescaped text) :=
  List.decidableBAll (fun c => c ≠ esc) text

/-- What is put together from plain texts is plain. -/
theorem Unescaped.append {text more : List Char} (h : Unescaped text) (h' : Unescaped more) :
    Unescaped (text ++ more) := by
  intro c hc
  rcases List.mem_append.mp hc with hc | hc
  · exact h c hc
  · exact h' c hc

/-- **Plain text goes to the screen that is shown.** -/
theorem feed_plain (hmode : t.mode = .ground) {text : List Char} (h : Unescaped text) :
    t.feed size text = t.onScreen (·.write size text) := by
  induction text generalizing t with
  | nil =>
      show t = t.onScreen (fun s => s)
      rw [Terminal.onScreen]
      split <;> rfl
  | cons c text ih =>
      have hc := h c (List.mem_cons_self ..)
      have hstep : t.step size c = t.onScreen (·.type size c) := by
        rw [Terminal.step, hmode]
        exact if_neg hc
      show (t.step size c).feed size text = _
      rw [hstep, ih (by rw [onScreen_mode, hmode]) (fun d hd => h d (List.mem_cons_of_mem _ hd)),
        onScreen_onScreen]
      rfl

end Feeding

/-! ## Drawing lines -/

section Drawing

variable {size : Size} {s : Screen}

/-- A character that takes a cell. -/
def Printable (c : Char) : Prop := 32 ≤ c.toNat ∧ c.toNat ≠ 127

instance (c : Char) : Decidable (Printable c) := inferInstanceAs (Decidable (_ ∧ _))

/-- A printable character before the right edge fills its cell and goes one on. -/
theorem type_printable {c : Char} (h : Printable c) (hcol : s.col < size.cols) :
    s.type size c
      = { s with
          cell := fun r k => if r = s.row ∧ k = s.col then c else s.cell r k
          col := s.col + 1 } := by
  have hne (d : Char) (hd : d.toNat < 32) : c ≠ d := by
    rintro rfl
    exact absurd h.1 (by omega)
  rw [Screen.type, if_neg (hne '\n' (by decide)), if_neg (hne '\r' (by decide)),
    if_neg (Nat.not_lt.mpr h.1), Screen.put, if_pos hcol]

/-- What stands in a row that shows a line. -/
def glyphAt (line : List Char) (k : Nat) : Char := line.getD k ' '

/-- A line that fits is put into the cells from the cursor on. -/
theorem write_printable {line : List Char} (h : ∀ c ∈ line, Printable c)
    (hfit : s.col + line.length < size.cols) :
    s.write size line
      = { s with
          cell := fun r k =>
            if r = s.row ∧ s.col ≤ k ∧ k < s.col + line.length then glyphAt line (k - s.col)
            else s.cell r k
          col := s.col + line.length } := by
  induction line generalizing s with
  | nil =>
      have hcell : (fun r k => if r = s.row ∧ s.col ≤ k ∧ k < s.col + ([] : List Char).length
          then glyphAt [] (k - s.col) else s.cell r k) = s.cell := by
        funext r k
        rw [if_neg (by rintro ⟨-, h1, h2⟩; exact Nat.lt_irrefl _ (Nat.lt_of_le_of_lt h1 h2))]
      rw [hcell]
      rfl
  | cons c line ih =>
      rw [List.length_cons] at hfit
      have hcol : s.col < size.cols := by omega
      have hcons := type_printable (h c (List.mem_cons_self ..)) hcol
      show (s.type size c).write size line = _
      rw [hcons, ih (fun d hd => h d (List.mem_cons_of_mem _ hd)) (by show _ + 1 + _ < _; omega)]
      have hcell : ∀ r k,
          (if r = s.row ∧ s.col + 1 ≤ k ∧ k < s.col + 1 + line.length
            then glyphAt line (k - (s.col + 1))
            else if r = s.row ∧ k = s.col then c else s.cell r k)
          = if r = s.row ∧ s.col ≤ k ∧ k < s.col + (c :: line).length
            then glyphAt (c :: line) (k - s.col) else s.cell r k := by
        intro r k
        rw [List.length_cons]
        by_cases hr : r = s.row
        · by_cases hk : k = s.col
          · subst hk
            rw [if_neg (by omega), if_pos ⟨hr, rfl⟩, if_pos (by omega), Nat.sub_self]
            rfl
          · by_cases hin : s.col + 1 ≤ k ∧ k < s.col + 1 + line.length
            · rw [if_pos ⟨hr, hin⟩, if_pos (by omega)]
              have hsub : k - s.col = (k - (s.col + 1)) + 1 := by omega
              rw [hsub]
              rfl
            · rw [if_neg (fun hno => hin hno.2), if_neg (fun hno => hk hno.2),
                if_neg (by omega)]
        · rw [if_neg (fun hno => hr hno.1), if_neg (fun hno => hr hno.1),
            if_neg (fun hno => hr hno.1)]
      simp only [hcell, List.length_cons]
      congr 1
      omega

/-- A line, and an erasure behind it. -/
def Screen.drawLine (size : Size) (line : List Char) (s : Screen) : Screen :=
  (s.write size line).eraseLine size

/-- The row shows the line, and nothing else. -/
theorem drawLine_eq {line : List Char} (h : ∀ c ∈ line, Printable c)
    (hfit : line.length < size.cols) (hcol : s.col = 0) :
    s.drawLine size line
      = { s with
          cell := fun r k => if r = s.row then glyphAt line k else s.cell r k
          col := line.length } := by
  rw [Screen.drawLine, write_printable h (by omega), hcol, Screen.eraseLine, Screen.column]
  have hcell : ∀ r k,
      (if r = s.row ∧ min line.length (size.cols - 1) ≤ k then ' '
        else if r = s.row ∧ 0 ≤ k ∧ k < line.length then glyphAt line k
        else s.cell r k)
      = if r = s.row then glyphAt line k else s.cell r k := by
    intro r k
    by_cases hr : r = s.row
    · by_cases hk : k < line.length
      · rw [if_neg (by omega), if_pos (by omega), if_pos hr]
      · rw [if_pos (by omega), if_pos hr, glyphAt, List.getD_eq_getElem?_getD,
          List.getElem?_eq_none (by omega)]
        rfl
    · rw [if_neg (fun hno => hr hno.1), if_neg (fun hno => hr hno.1), if_neg hr]
  simp only [Nat.zero_add, Nat.sub_zero, hcell]

/-- Lines one below the other. -/
def Screen.drawLines (size : Size) : List (List Char) → Screen → Screen
  | [], s => s
  | line :: rest, s =>
      if rest = [] then s.drawLine size line
      else Screen.drawLines size rest ((s.drawLine size line).newline size)

/-- A screen that shows these lines from the top, and nothing below them. -/
def Screen.Shows (lines : List (List Char)) (s : Screen) : Prop :=
  ∀ r k, s.cell r k = glyphAt (lines.getD r []) k

/-- Lines a screen has room for. -/
structure Fits (size : Size) (lines : List (List Char)) : Prop where
  rows : lines.length ≤ size.rows
  cols : ∀ line ∈ lines, line.length < size.cols
  printable : ∀ line ∈ lines, ∀ c ∈ line, Printable c

instance (size : Size) (lines : List (List Char)) : Decidable (Fits size lines) :=
  decidable_of_iff (lines.length ≤ size.rows ∧ (lines.all fun line =>
      decide (line.length < size.cols) && line.all fun c => decide (Printable c)) = true) (by
    simp only [List.all_eq_true, Bool.and_eq_true, decide_eq_true_iff]
    constructor
    · rintro ⟨hrows, hlines⟩
      exact ⟨hrows, fun line hline => (hlines line hline).1, fun line hline =>
        (hlines line hline).2⟩
    · intro h
      exact ⟨h.rows, fun line hline => ⟨h.cols line hline, h.printable line hline⟩⟩)

/-- **Lines one below the other** change their own rows; the cursor ends in the last. -/
theorem drawLines_spec {lines : List (List Char)} (hne : lines ≠ [])
    (hcols : ∀ line ∈ lines, line.length < size.cols)
    (hprint : ∀ line ∈ lines, ∀ c ∈ line, Printable c)
    (hrows : s.row + lines.length ≤ size.rows) (hcol : s.col = 0) :
    (∀ r k, (s.drawLines size lines).cell r k
        = if s.row ≤ r ∧ r < s.row + lines.length then glyphAt (lines.getD (r - s.row) []) k
          else s.cell r k)
      ∧ (s.drawLines size lines).row + 1 = s.row + lines.length
      ∧ ∃ last ∈ lines, lines.getD (lines.length - 1) [] = last
        ∧ (s.drawLines size lines).col = last.length := by
  induction lines generalizing s with
  | nil => exact absurd rfl hne
  | cons line rest ih =>
      have hline := drawLine_eq (s := s) (hprint line (List.mem_cons_self ..))
        (hcols line (List.mem_cons_self ..)) hcol
      cases rest with
      | nil =>
          rw [Screen.drawLines, if_pos rfl, hline]
          refine ⟨fun r k => ?_, rfl, line, List.mem_cons_self .., rfl, rfl⟩
          by_cases hr : r = s.row
          · rw [if_pos (show s.row ≤ r ∧ r < s.row + [line].length from
                ⟨by omega, by rw [List.length_singleton]; omega⟩)]
            simp only [hr, Nat.sub_self]
            rfl
          · have hout : ¬ (s.row ≤ r ∧ r < s.row + [line].length) := by
              rw [List.length_singleton]
              omega
            rw [if_neg hout]
            simp only [if_neg hr]
      | cons next rest =>
          simp only [List.length_cons] at hrows
          have hnewline : (s.drawLine size line).newline size
              = { s with
                  cell := fun r k => if r = s.row then glyphAt line k else s.cell r k
                  row := s.row + 1
                  col := 0 } := by
            rw [hline, Screen.newline, if_pos (show s.row + 1 < size.rows by omega)]
          rw [Screen.drawLines, if_neg (by exact List.cons_ne_nil _ _), hnewline]
          obtain ⟨hcell, hrow, last, hlast, hget, hcol'⟩ := ih
            (s := { s with
                  cell := fun r k => if r = s.row then glyphAt line k else s.cell r k
                  row := s.row + 1
                  col := 0 })
            (List.cons_ne_nil _ _)
            (fun l hl => hcols l (List.mem_cons_of_mem _ hl))
            (fun l hl => hprint l (List.mem_cons_of_mem _ hl))
            (by simp only [List.length_cons]; omega) rfl
          refine ⟨fun r k => ?_, ?_, last, List.mem_cons_of_mem _ hlast, ?_, hcol'⟩
          · rw [hcell]
            show (if s.row + 1 ≤ r ∧ r < s.row + 1 + (rest.length + 1)
                then glyphAt ((next :: rest).getD (r - (s.row + 1)) []) k
                else if r = s.row then glyphAt line k else s.cell r k)
              = if s.row ≤ r ∧ r < s.row + (rest.length + 1 + 1)
                then glyphAt ((line :: next :: rest).getD (r - s.row) []) k else s.cell r k
            by_cases hr : r = s.row
            · rw [if_neg (by omega), if_pos hr, if_pos (by omega), hr, Nat.sub_self]
              rfl
            · by_cases hin : s.row + 1 ≤ r ∧ r < s.row + 1 + (rest.length + 1)
              · have hsub : r - s.row = (r - (s.row + 1)) + 1 := by omega
                rw [if_pos hin, if_pos (by omega), hsub]
                rfl
              · rw [if_neg hin, if_neg hr, if_neg (by omega)]
          · rw [hrow]
            simp only [List.length_cons]
            omega
          · exact hget

/-- **Lines drawn from the top corner are what the screen shows** once all below them is
    erased, whatever it showed before. -/
theorem drawn_shows {lines : List (List Char)} (hne : lines ≠ []) (hfits : Fits size lines)
    (hrow : s.row = 0) (hcol : s.col = 0) :
    ((s.drawLines size lines).eraseBelow size).Shows lines := by
  obtain ⟨hcell, hlast, last, hmem, hget, hend⟩ := drawLines_spec hne hfits.cols
    hfits.printable (by rw [hrow, Nat.zero_add]; exact hfits.rows) hcol
  have hlen : last.length < size.cols := hfits.cols last hmem
  intro r k
  rw [hrow, Nat.zero_add] at hlast
  show (if _ ∨ _ then ' ' else (s.drawLines size lines).cell r k) = _
  rw [hcell, hrow, Nat.sub_zero, Nat.zero_add, Screen.column, hend]
  by_cases hr : r < lines.length
  · rw [if_pos (show 0 ≤ r ∧ r < lines.length from ⟨Nat.zero_le r, hr⟩)]
    by_cases hbehind : r = (s.drawLines size lines).row ∧ min last.length (size.cols - 1) ≤ k
    · -- behind the last line there was nothing to erase
      have hr' : r = lines.length - 1 := by omega
      rw [if_pos (.inr hbehind), hr', hget, glyphAt, List.getD_eq_getElem?_getD,
        List.getElem?_eq_none (by omega)]
      rfl
    · rw [if_neg (by rintro (h | h); exacts [absurd h (by omega), hbehind h])]
  · rw [if_pos (.inl (by omega)), List.getD_eq_getElem?_getD,
      List.getElem?_eq_none (by omega)]
    rfl

end Drawing

/-! ## Control sequences as text -/

def clearScreen : List Char := [esc, '[', '2', 'J']
def cursorHome : List Char := [esc, '[', 'H']
def hideCursor : List Char := [esc, '[', '?', '2', '5', 'l']
def showCursor : List Char := [esc, '[', '?', '2', '5', 'h']
def clearLine : List Char := [esc, '[', 'K']
def clearBelow : List Char := [esc, '[', '0', 'J']
def enterAlt : List Char := [esc, '[', '?', '1', '0', '4', '9', 'h']
def leaveAlt : List Char := [esc, '[', '?', '1', '0', '4', '9', 'l']

/-- The text that draws lines. -/
def linesText : List (List Char) → List Char
  | [] => []
  | line :: rest =>
      line ++ clearLine ++ (if rest = [] then [] else '\n' :: linesText rest)

section Sequences

variable {size : Size} {t : Terminal}

/-- The sequence moves the cursor to the top, on a terminal that is not inside another one. -/
theorem feed_cursorHome (h : t.mode = .ground) :
    t.feed size cursorHome = t.onScreen Screen.home := by
  obtain ⟨primary, alternate, onAlternate, visible, mode⟩ := t
  cases h
  cases onAlternate <;> rfl

/-- The sequence blanks the screen; the cursor stays. -/
theorem feed_clearScreen (h : t.mode = .ground) :
    t.feed size clearScreen = t.onScreen Screen.clear := by
  obtain ⟨primary, alternate, onAlternate, visible, mode⟩ := t
  cases h
  cases onAlternate <;> rfl

/-- What is behind the cursor is erased, to the end of its line. -/
theorem feed_clearLine (h : t.mode = .ground) :
    t.feed size clearLine = t.onScreen (Screen.eraseLine size) := by
  obtain ⟨primary, alternate, onAlternate, visible, mode⟩ := t
  cases h
  cases onAlternate <;> rfl

/-- What is behind the cursor is erased, to the end of the screen. -/
theorem feed_clearBelow (h : t.mode = .ground) :
    t.feed size clearBelow = t.onScreen (Screen.eraseBelow size) := by
  obtain ⟨primary, alternate, onAlternate, visible, mode⟩ := t
  cases h
  cases onAlternate <;> rfl

theorem feed_hideCursor (h : t.mode = .ground) :
    t.feed size hideCursor = { t with cursorVisible := false } := by
  obtain ⟨primary, alternate, onAlternate, visible, mode⟩ := t
  cases h
  rfl

theorem feed_showCursor (h : t.mode = .ground) :
    t.feed size showCursor = { t with cursorVisible := true } := by
  obtain ⟨primary, alternate, onAlternate, visible, mode⟩ := t
  cases h
  rfl

/-- The alternate screen is empty when it is entered. -/
theorem feed_enterAlt (h : t.mode = .ground) :
    t.feed size enterAlt = { t with alternate := {}, onAlternate := true } := by
  obtain ⟨primary, alternate, onAlternate, visible, mode⟩ := t
  cases h
  rfl

/-- The primary screen comes back as it was left. -/
theorem feed_leaveAlt (h : t.mode = .ground) :
    t.feed size leaveAlt = { t with onAlternate := false } := by
  obtain ⟨primary, alternate, onAlternate, visible, mode⟩ := t
  cases h
  rfl

/-- The text of the lines draws the lines. -/
theorem feed_linesText (h : t.mode = .ground) {lines : List (List Char)}
    (hplain : ∀ line ∈ lines, Unescaped line) :
    t.feed size (linesText lines) = t.onScreen (Screen.drawLines size lines) := by
  induction lines generalizing t with
  | nil =>
      show t = t.onScreen (fun s => s)
      rw [Terminal.onScreen]
      split <;> rfl
  | cons line rest ih =>
      rw [linesText, feed_append, feed_append,
        feed_plain h (hplain line (List.mem_cons_self ..)),
        feed_clearLine (by rw [onScreen_mode, h]), onScreen_onScreen]
      by_cases hrest : rest = []
      · subst hrest
        rfl
      · rw [if_neg hrest]
        have hline : (t.onScreen (fun s => (s.write size line).eraseLine size)).feed size
              ('\n' :: linesText rest)
            = (t.onScreen (fun s => ((s.write size line).eraseLine size).newline size)).feed size
              (linesText rest) := by
          show (Terminal.step size _ '\n').feed size (linesText rest) = _
          rw [Terminal.step, onScreen_mode, h]
          simp only
          rw [if_neg (by decide), onScreen_onScreen]
          rfl
        rw [hline, ih (by rw [onScreen_mode, h])
          (fun l hl => hplain l (List.mem_cons_of_mem _ hl)), onScreen_onScreen]
        congr 1
        funext s
        rw [Screen.drawLines, if_neg hrest]
        rfl

end Sequences

end AnsiTerminal
