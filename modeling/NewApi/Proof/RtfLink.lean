import NewApi.Spec.RtfLink

/-!
# The label of a link

A reader gets the text back from its escapes (`read_escapeString`). But `stripRtfControl` takes an escaped character for
a control word that goes on until the next space or brace, so what it finds of a label (`remains`) may be nothing, or
the target. Then the label is not shown (`label_lost`), unless the target contains it (`link_keeps_label_iff`).
-/

namespace NewApi.Rtf

open List

namespace Reader

variable {r : Reader}

theorem read_append (r : Reader) (a b : List Char) :
    r.read (a ++ b) = (((r.read a).1.read b).1, (r.read a).2 ++ ((r.read a).1.read b).2) := by
  induction a generalizing r with
  | nil => rfl
  | cons c a ih => simp [read, ih]

theorem read_unseen {r' : Reader} {a b : List Char} (h : r.read a = (r', [])) :
    (r.read (a ++ b)).2 = (r'.read b).2 := by
  rw [read_append, h]
  rfl

theorem shows_append (r : Reader) (a b : List ℕ) : r.shows (a ++ b) = r.shows a ++ r.shows b := by
  unfold shows
  split_ifs <;> rfl

theorem read_number {name number : List Char} (hmode : r.mode = .word name)
    (hnumber : ∀ c ∈ number, c.isDigit ∨ c = '-') :
    r.read number = ({ r with mode := .word (name ++ number) }, []) := by
  induction number generalizing r name with
  | nil => simp [read, ← hmode]
  | cons c number ih =>
    have hstep : r.step c = ({ r with mode := .word (name ++ [c]) }, []) := by
      rcases hnumber c mem_cons_self with hdigit | rfl
      · simp [step, hmode, hdigit]
      · simp [step, hmode]
    have hrest := ih (r := ⟨.word (name ++ [c]), r.depth, r.hidden⟩) rfl fun d hd => hnumber d (mem_cons_of_mem _ hd)
    simp [read, hstep, hrest]

theorem itoa_spec (value : ℤ) :
    (∀ c ∈ itoa value, c.isDigit ∨ c = '-') ∧ unit? ('u' :: itoa value) = some value := by
  have hdigits (c : Char) : c ∈ Nat.toDigits 10 value.natAbs → c.isDigit :=
    Nat.isDigit_of_mem_toDigits (by decide) (by decide)
  unfold itoa
  split_ifs with hneg
  · refine ⟨fun c hc => ?_, ?_⟩
    · rcases mem_cons.1 hc with rfl | hc
      · exact .inr rfl
      · exact .inl (hdigits c hc)
    · have habs : -(value.natAbs : ℤ) = value := by omega
      rw [unit?, if_neg (by simp), if_pos head?_cons, tail_cons, Nat.ofDigitChars_ten_toDigits, habs]
  · refine ⟨fun c hc => .inl (hdigits c hc), ?_⟩
    have habs : (value.natAbs : ℤ) = value := by omega
    rw [unit?, if_pos (all_eq_true.2 hdigits), Nat.ofDigitChars_ten_toDigits, habs]

theorem read_escapeUnit (hmode : r.mode = .text) {unit : ℕ} (hunit : unit < 65536) :
    r.read (escapeUnit unit) = (r, r.shows [unit]) := by
  obtain ⟨mode, depth, hidden⟩ := r
  subst hmode
  set value : ℤ := if unit > 32767 then unit - 65536 else unit with hvalue
  obtain ⟨hchars, hunits⟩ := itoa_spec value
  have hback : value % 65536 = unit := by split_ifs at hvalue <;> omega
  have hword : (Reader.mk .text depth hidden).read ['\\', 'u'] = (⟨.word ['u'], depth, hidden⟩, []) := rfl
  have hescape : escapeUnit unit = ['\\', 'u'] ++ (itoa value ++ ['?']) := rfl
  rw [hescape, read_append, hword, read_append, read_number rfl hchars]
  simp [read, step, perform, hunits, hback, plain, shows]

theorem read_escapeRune (hmode : r.mode = .text) (c : Char) :
    r.read (escapeRune c) = (r, r.shows (labelText [c])) := by
  obtain ⟨mode, depth, hidden⟩ := r
  subst hmode
  have htop : c.toNat < 0x110000 := by
    rcases c.valid with h | h
    · exact h.trans (by decide)
    · exact h.2
  unfold escapeRune
  split_ifs with hsymbol htab hline hcontrol hascii hpair
  · rcases hsymbol with rfl | rfl | rfl <;> simp [read, step, plain, shows, labelText, utf16]
  · subst htab
    simp [read, step, plain, perform, unit?, shows, labelText, utf16]
  · subst hline
    simp [read, step, plain, perform, unit?, shows, labelText, utf16]
  · simp [labelText, hcontrol, htab, hline, read, shows]
  all_goals have htext : labelText [c] = utf16 c := by simp [labelText, hcontrol]
  · have hreturn : c ≠ '\r' := by
      rintro rfl
      exact hcontrol (by decide)
    push Not at hsymbol
    simp [htext, read, step, plain, hsymbol, hline, hreturn]
  · have hhigh : (surrogatePair c.toNat).1 = 0xD800 + (c.toNat - 0x10000) / 1024 :=
      congrArg (0xD800 + ·) (Nat.shiftRight_eq_div_pow _ 10)
    have hlow : (surrogatePair c.toNat).2 = 0xDC00 + (c.toNat - 0x10000) % 1024 :=
      congrArg (0xDC00 + ·) (Nat.and_two_pow_sub_one_eq_mod _ 10)
    have hunit {unit : ℕ} (h : unit < 65536) := read_escapeUnit (r := ⟨.text, depth, hidden⟩) rfl h
    rw [hhigh, hlow, read_append, hunit (by omega), hunit (by omega), ← shows_append, htext, utf16, if_pos hpair]
    rfl
  · rw [read_escapeUnit rfl (by omega), htext, utf16, if_neg hpair]

/-- **A reader gets the text back.** -/
theorem read_escapeString (hmode : r.mode = .text) (text : List Char) :
    r.read (escapeString text) = (r, r.shows (labelText text)) := by
  induction text with
  | nil => simp [escapeString, labelText, read, shows]
  | cons c text ih =>
    rw [show escapeString (c :: text) = escapeRune c ++ escapeString text from rfl, read_append,
      read_escapeRune hmode, ih, ← shows_append]
    simp [labelText]

end Reader

open Reader

theorem shownText_field (visible target : List Char) :
    shownText ("\x7b\\field\x7b\\*\\fldinst\x7bHYPERLINK \x22".toList ++ escapeFieldTarget target ++
      ("\x22\x7d\x7d\x7b\\fldrslt\x7b\\ul\\cf1 ".toList ++ (visible ++ "\x7d\x7d\x7d".toList))) =
      (({ depth := 3 } : Reader).read (visible ++ "\x7d\x7d\x7d".toList)).2 := by
  have hstart : ({} : Reader).read "\x7b\\field\x7b\\*\\fldinst\x7bHYPERLINK \x22".toList =
      ({ depth := 3, hidden := some 2 }, []) := by
    decide +kernel
  have htarget : ({ depth := 3, hidden := some 2 } : Reader).read (escapeFieldTarget target) =
      ({ depth := 3, hidden := some 2 }, []) := read_escapeString rfl _
  have hresult : ({ depth := 3, hidden := some 2 } : Reader).read "\x22\x7d\x7d\x7b\\fldrslt\x7b\\ul\\cf1 ".toList =
      ({ depth := 3 }, []) := by
    decide +kernel
  rw [shownText, append_assoc, read_unseen hstart, read_unseen htarget, read_unseen hresult]

/-- **Text stays text**: where a reader is at plain text it shows an escaped text as it was, and reads on behind it as
if nothing had been there. -/
theorem escaped_text_inert {r : Reader} (hmode : r.mode = .text) (text rest : List Char) :
    r.read (escapeString text ++ rest) = ((r.read rest).1, r.shows (labelText text) ++ (r.read rest).2) := by
  rw [read_append, read_escapeString hmode]

theorem escaped_text_inert_field :
    shownText (escapeString "\x7b\\field".toList) = labelText "\x7b\\field".toList :=
  congrArg Prod.snd (escaped_text_inert (r := {}) rfl "\x7b\\field".toList [])

/-- What `stripRtfControl` leaves of an escaped label, from the label itself: an escape hides what follows it up to the
next space, semicolon, brace, tab or newline. -/
def remains (inControl : Bool) : List Char → List Char
  | [] => []
  | c :: text =>
    if c = '{' ∨ c = '}' ∨ c = '\t' ∨ c = '\n' then remains false text
    else if c = '\\' ∨ 0x7f ≤ c.toNat then remains true text
    else if c.toNat < 0x20 then remains inControl text
    else if inControl then remains (c ≠ ' ' ∧ c ≠ ';') text
    else c :: remains false text

theorem strip_control {name rest : List Char} (hname : ∀ c ∈ name, c ∉ ['\\', ' ', ';', '}', '{']) :
    stripRtfControl true (name ++ rest) = stripRtfControl true rest := by
  induction name with
  | nil => rfl
  | cons c name ih =>
    have hc := hname c mem_cons_self
    simp only [mem_cons, not_mem_nil, or_false, not_or] at hc
    rw [cons_append, stripRtfControl, if_neg hc.1, if_pos rfl]
    simpa [hc] using ih fun d hd => hname d (mem_cons_of_mem c hd)

theorem itoa_plain {value : ℤ} {c : Char} (hc : c ∈ itoa value) : c ∉ ['\\', ' ', ';', '}', '{'] := by
  rcases (itoa_spec value).1 c hc with hdigit | rfl
  · simp only [mem_cons, not_mem_nil, or_false]
    rintro (rfl | rfl | rfl | rfl | rfl) <;> cases hdigit
  · decide

theorem strip_escapeUnit (inControl : Bool) (unit : ℕ) (rest : List Char) :
    stripRtfControl inControl (escapeUnit unit ++ rest) = stripRtfControl true rest := by
  have hnumber (value : ℤ) := @strip_control _ ('?' :: rest) fun c => @itoa_plain value c
  simp only [escapeUnit, cons_append, append_assoc, nil_append, stripRtfControl]
  simp [hnumber, stripRtfControl]

theorem strip_escapeString (inControl : Bool) (label : List Char) :
    stripRtfControl inControl (escapeString label) = remains inControl label := by
  induction label generalizing inControl with
  | nil => rfl
  | cons c label ih =>
    rw [show escapeString (c :: label) = escapeRune c ++ escapeString label from rfl, remains]
    by_cases hends : c = '{' ∨ c = '}' ∨ c = '\t' ∨ c = '\n'
    · rw [if_pos hends, ← ih]
      rcases hends with rfl | rfl | rfl | rfl <;> rfl
    rw [if_neg hends]
    push Not at hends
    by_cases hback : c = '\\'
    · subst hback
      rw [if_pos (.inl rfl), ← ih]
      rfl
    simp only [escapeRune, hends, hback, false_or, or_self, if_false]
    by_cases hhigh : 0x7f ≤ c.toNat
    · rw [if_neg (by omega), if_neg (by omega), if_pos hhigh]
      split_ifs
      · rw [append_assoc, strip_escapeUnit, strip_escapeUnit, ih]
      · rw [strip_escapeUnit, ih]
    rw [if_neg hhigh]
    by_cases hcontrol : c.toNat < 0x20
    · rw [if_pos hcontrol, if_pos hcontrol]
      exact ih _
    rw [if_neg hcontrol, if_neg hcontrol, if_pos (by omega), singleton_append, stripRtfControl, if_neg hback]
    cases inControl with
    | true => simpa [hends] using ih _
    | false => simpa [hends] using ih _

/-- A space, or a control character that leaves nothing -/
def Blank (c : Char) : Prop := c = ' ' ∨ c.toNat < 0x20 ∧ c ≠ '\t' ∧ c ≠ '\n'

theorem Blank.escape {c : Char} (h : Blank c) :
    (escapeRune c = [' '] ∧ labelText [c] = [32]) ∨ (escapeRune c = [] ∧ labelText [c] = []) := by
  rcases h with rfl | ⟨hcontrol, htab, hline⟩
  · exact .inl (by decide)
  have hsymbol : ¬ (c = '\\' ∨ c = '{' ∨ c = '}') := by rintro (rfl | rfl | rfl) <;> revert hcontrol <;> decide
  exact .inr ⟨by simp [escapeRune, hsymbol, htab, hline, hcontrol], by simp [labelText, hcontrol, htab, hline]⟩

theorem isSpace_visible {c : Char} (hlow : 0x20 < c.toNat) (hhigh : c.toNat < 0x7f) : isSpace c = false := by
  simp only [isSpace]
  rw [if_pos (by omega)]
  simp only [Bool.or_eq_false_iff, Bool.and_eq_false_iff, decide_eq_false_iff_not, beq_eq_false_iff_ne]
  omega

/-- What follows a link's text -/
def closing : List Char := "\x7d\x7d\x7d".toList

theorem read_closing (text : List Char) :
    (({ depth := 3 } : Reader).read (escapeString text ++ closing)).2 = labelText text := by
  rw [read_append, read_escapeString rfl, show (({ depth := 3 } : Reader).read closing).2 = [] by decide, append_nil]
  rfl

/-- The text without the spaces around it -/
def trimSpaces (units : List ℕ) : List ℕ := (units.dropWhile (· == 32)).rdropWhile (· == 32)

theorem escapeRune_head {c : Char} (h : ¬ Blank c) : ∃ x xs, escapeRune c = x :: xs ∧ isSpace x = false := by
  have hback : isSpace '\\' = false := by decide
  unfold escapeRune
  split_ifs with hsymbol htab hline hcontrol hascii
  · exact ⟨_, _, rfl, hback⟩
  · exact ⟨_, _, rfl, hback⟩
  · exact ⟨_, _, rfl, hback⟩
  · exact absurd (.inr ⟨hcontrol, htab, hline⟩) h
  · have hspace : c.toNat ≠ 0x20 := fun hc => h (.inl (Char.toNat_inj.1 hc))
    exact ⟨c, [], rfl, isSpace_visible (by omega) hascii⟩
  · exact ⟨_, _, rfl, hback⟩
  · exact ⟨_, _, rfl, hback⟩

/-- The space that ends a control word is the only one at the end of an escape. -/
theorem escapeRune_last {c : Char} (h : ¬ Blank c) :
    (c = '\t' ∨ c = '\n') ∨ ∃ xs x, escapeRune c = xs ++ [x] ∧ isSpace x = false := by
  unfold escapeRune
  split_ifs with hsymbol htab hline hcontrol hascii
  · refine .inr ⟨['\\'], c, rfl, ?_⟩
    rcases hsymbol with rfl | rfl | rfl <;> decide
  · exact .inl (.inl htab)
  · exact .inl (.inr hline)
  · exact absurd (.inr ⟨hcontrol, htab, hline⟩) h
  · have hspace : c.toNat ≠ 0x20 := fun hc => h (.inl (Char.toNat_inj.1 hc))
    exact .inr ⟨[], c, rfl, isSpace_visible (by omega) hascii⟩
  · exact .inr ⟨_, '?', (append_assoc ..).symm, by decide⟩
  · exact .inr ⟨_, '?', rfl, by decide⟩

theorem labelText_solid {c : Char} (h : ¬ Blank c) :
    labelText [c] ≠ [] ∧ ∀ unit ∈ labelText [c], (unit == 32) = false := by
  have hspace : c.toNat ≠ 0x20 := fun hc => h (.inl (Char.toNat_inj.1 hc))
  have hkept : labelText [c] = utf16 c := by
    have hcontrol : ¬ (c.toNat < 0x20 ∧ c ≠ '\t' ∧ c ≠ '\n') := fun hc => h (.inr hc)
    simp [labelText, hcontrol]
  rw [hkept, utf16]
  split_ifs
  · refine ⟨cons_ne_nil _ _, fun unit hunit => ?_⟩
    simp only [mem_cons, not_mem_nil, or_false] at hunit
    simp only [beq_eq_false_iff_ne]
    omega
  · refine ⟨cons_ne_nil _ _, fun unit hunit => ?_⟩
    rw [mem_singleton.1 hunit]
    exact beq_eq_false_iff_ne.2 hspace

theorem escapeString_append (a b : List Char) : escapeString (a ++ b) = escapeString a ++ escapeString b :=
  flatMap_append

theorem labelText_append (a b : List Char) : labelText (a ++ b) = labelText a ++ labelText b := flatMap_append

theorem escapeString_singleton (c : Char) : escapeString [c] = escapeRune c := flatMap_singleton _ _

/-- The spaces in front of an escaped text are those in front of the text. -/
theorem dropWhile_escapeString (text : List Char) : ∃ rest, (escapeString text).dropWhile isSpace = escapeString rest ∧
    (labelText text).dropWhile (· == 32) = labelText rest := by
  induction text with
  | nil => exact ⟨[], rfl, rfl⟩
  | cons c text ih =>
    rw [← singleton_append, escapeString_append, labelText_append, escapeString_singleton]
    by_cases hblank : Blank c
    · have hspace : isSpace ' ' = true := by decide
      rcases hblank.escape with ⟨hescape, htext⟩ | ⟨hescape, htext⟩ <;> rw [hescape, htext]
      · simpa [hspace] using ih
      · exact ih
    · obtain ⟨x, xs, hescape, hx⟩ := escapeRune_head hblank
      obtain ⟨hne, hunits⟩ := labelText_solid hblank
      obtain ⟨unit, units, htext⟩ := exists_cons_of_ne_nil hne
      refine ⟨[c] ++ text, ?_, ?_⟩
      · rw [escapeString_append, escapeString_singleton, hescape, cons_append, dropWhile_cons_of_neg (by simp [hx])]
      · rw [labelText_append, htext, cons_append, dropWhile_cons_of_neg]
        simp [hunits unit (by simp [htext])]

/-- The spaces at the end of an escaped text are those at the end of the text, and the one behind a control word, which
shows nothing. -/
theorem read_rdropWhile (text : List Char) :
    (({ depth := 3 } : Reader).read ((escapeString text).rdropWhile isSpace ++ closing)).2 =
      (labelText text).rdropWhile (· == 32) := by
  induction text using reverseRecOn with
  | nil => decide
  | append_singleton text c ih =>
    rw [escapeString_append, labelText_append, escapeString_singleton]
    by_cases hblank : Blank c
    · have hspace : isSpace ' ' = true := by decide
      rcases hblank.escape with ⟨hescape, htext⟩ | ⟨hescape, htext⟩ <;> rw [hescape, htext]
      · rwa [rdropWhile_concat_pos _ _ _ hspace, rdropWhile_concat_pos _ _ _ (by rfl)]
      · simpa using ih
    · obtain ⟨hne, hunits⟩ := labelText_solid hblank
      have hkept : (labelText text ++ labelText [c]).rdropWhile (· == 32) = labelText text ++ labelText [c] := by
        rw [rdropWhile_eq_self_iff]
        intro hl
        rw [getLast_append_of_ne_nil hl hne, hunits _ (getLast_mem hne)]
        decide
      rw [hkept]
      have hspace : isSpace ' ' = true := by decide
      rcases escapeRune_last hblank with (rfl | rfl) | ⟨xs, x, hescape, hx⟩
      · rw [show escapeRune '\t' = "\\ta".toList ++ ['b'] ++ [' '] by decide, ← append_assoc,
          rdropWhile_concat_pos _ _ _ hspace, ← append_assoc, rdropWhile_concat_neg _ _ _ (by decide),
          append_assoc, append_assoc, read_append, read_escapeString rfl]
        rfl
      · rw [show escapeRune '\n' = "\\lin".toList ++ ['e'] ++ [' '] by decide, ← append_assoc,
          rdropWhile_concat_pos _ _ _ hspace, ← append_assoc, rdropWhile_concat_neg _ _ _ (by decide),
          append_assoc, append_assoc, read_append, read_escapeString rfl]
        rfl
      · have hwhole : (escapeString text ++ escapeRune c).rdropWhile isSpace = escapeString (text ++ [c]) := by
          rw [hescape, ← append_assoc, rdropWhile_concat_neg _ _ _ (by simp [hx]), append_assoc, ← hescape,
            escapeString_append, escapeString_singleton]
        rw [hwhole, read_closing, labelText_append]

theorem remains_visible {inControl : Bool} {label : List Char} {c : Char} (hc : c ∈ remains inControl label) :
    0x20 ≤ c.toNat ∧ c.toNat < 0x7f := by
  induction label generalizing inControl with
  | nil => cases hc
  | cons d label ih =>
    rw [remains] at hc
    split_ifs at hc with hends hhigh hcontrol hin
    · exact ih hc
    · exact ih hc
    · exact ih hc
    · exact ih hc
    · push Not at hhigh
      rcases mem_cons.1 hc with rfl | hc
      · omega
      · exact ih hc

theorem escapeString_visible {text : List Char} (hvisible : ∀ c ∈ text, 0x20 ≤ c.toNat ∧ c.toNat < 0x7f) :
    escapeString text = [] ↔ text = [] := by
  refine ⟨fun h => ?_, fun h => by rw [h]; rfl⟩
  cases text with
  | nil => rfl
  | cons c text =>
    have hc := hvisible c mem_cons_self
    have hnone := (append_eq_nil_iff.1 (show escapeRune c ++ escapeString text = [] from h)).1
    unfold escapeRune at hnone
    split_ifs at hnone
    all_goals omega

/-- **A link keeps its label** exactly if the target is shown behind it, or what is shown contains it: the label without
its escaped characters, or the target if nothing else is left of the label. -/
theorem link_keeps_label_iff (label target : List Char) :
    labelText label <:+: shownText (linkRTF (escapeString label) target) ↔
      let clean := trim (remains false label)
      ShowsTarget clean target ∨ clean ≠ [] ∧ labelText label <:+: labelText clean ∨
        clean = [] ∧ labelText label <:+: trimSpaces (labelText target) := by
  have hclean : cleanLabel (escapeString label) = trim (remains false label) := congrArg trim (strip_escapeString ..)
  set clean := trim (remains false label)
  have hlink : shownText (linkRTF (escapeString label) target) = _ :=
    shownText_field (if ShowsTarget (cleanLabel (escapeString label)) target then _ else _) target
  have hempty : escapeString clean = [] ↔ clean = [] := by
    refine escapeString_visible fun c hc => @remains_visible false label c ?_
    exact (dropWhile_suffix _).subset (( rdropWhile_prefix _ _).subset hc)
  rw [hlink, hclean]
  by_cases hshows : ShowsTarget clean target
  · simp only [hshows, if_true, true_or, iff_true]
    rw [append_assoc, append_assoc, append_assoc, read_append, read_escapeString rfl]
    exact (prefix_append ..).isInfix
  by_cases hnil : clean = []
  · obtain ⟨rest, hrest, htext⟩ := dropWhile_escapeString target
    have htarget : (({ depth := 3 } : Reader).read (trim (escapeString target) ++ closing)).2 =
        trimSpaces (labelText target) := by
      rw [trim, hrest, read_rdropWhile, trimSpaces, htext]
    rw [if_neg hshows, if_pos (hempty.2 hnil), show "\x7d\x7d\x7d".toList = closing from rfl, htarget]
    simp only [hshows, false_or]
    simp only [hnil, ne_eq, not_true_eq_false, false_and, false_or, true_and]
  · rw [if_neg hshows, if_neg (mt hempty.1 hnil), show "\x7d\x7d\x7d".toList = closing from rfl, read_closing]
    simp only [hshows, hnil, ne_eq, not_false_eq_true, false_and, or_false, false_or, true_and]

/-- The link shows its target alone. -/
theorem label_lost : ¬ labelText ['é'] <:+: shownText (linkRTF (escapeString ['é']) ['a']) := by
  have hshown : shownText (linkRTF (escapeString ['é']) ['a']) = labelText ['a'] := by decide +kernel
  rw [hshown]
  decide

end NewApi.Rtf
