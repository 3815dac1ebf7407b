import Emane.Eel.Lemmas.InputParser

/-!
This module contains the sentences that are written in a line, and which of them are read as they
are written.
-/

namespace Emane
namespace Eel

open InputParser

abbrev PlainText := {t : Text // t ≠ [] ∧ ∀ c ∈ t, isDelimiter c = false}

abbrev QuotedText := {t : Text // ∀ c ∈ t, c ≠ quote ∧ c ≠ newline}

inductive Argument where
  | plain (t : PlainText)
  | quoted (t : QuotedText)

namespace Argument

def value : Argument → Text
  | plain t => t.val
  | quoted t => t.val

def written : Argument → Text
  | plain t => t.val
  | quoted t => quote :: t.val ++ [quote]

def IsQuoted : Argument → Prop
  | plain _ => False
  | quoted _ => True

end Argument

abbrev Blanks := {s : Text // ∀ c ∈ s, ParameterConvert.isBlank c = true}

structure NextArgument where
  blanks : Blanks
  blanks_ne_nil : blanks.val ≠ []
  argument : Argument

namespace NextArgument

def written (a : NextArgument) : Text :=
  a.blanks.val ++ a.argument.written

end NextArgument

structure Comment where
  blanks : Blanks
  text : Text

def tail : Option Comment → Text
  | none => []
  | some comment => comment.blanks.val ++ '#' :: comment.text

structure Sentence where
  time : Argument
  moduleId : NextArgument
  eventType : NextArgument
  inputArguments : List NextArgument
  comment : Option Comment

namespace Sentence

def rest (sentence : Sentence) : List NextArgument :=
  sentence.moduleId :: sentence.eventType :: sentence.inputArguments

def text (sentence : Sentence) : Text :=
  sentence.time.written ++ sentence.rest.flatMap NextArgument.written ++ tail sentence.comment

def IsQuoted (sentence : Sentence) : Prop :=
  sentence.time.IsQuoted ∨ ∃ a ∈ sentence.rest, a.argument.IsQuoted

end Sentence

def TwoQuotes (s : Text) : Prop :=
  [quote, quote] <:+: s

section

variable {c : Char} {s t : Text}

theorem twoQuotes_cons_of_ne (h : c ≠ quote) (s : Text) : TwoQuotes (c :: s) ↔ TwoQuotes s := by
  unfold TwoQuotes
  rw [List.infix_cons_iff, or_iff_right]
  intro hprefix
  exact h (List.cons_prefix_cons.mp hprefix).1.symm

theorem twoQuotes_quote_cons_of_ne (h : c ≠ quote) (s : Text)
    : TwoQuotes (quote :: c :: s) ↔ TwoQuotes s := by
  rw [← twoQuotes_cons_of_ne h s]
  unfold TwoQuotes
  rw [List.infix_cons_iff, or_iff_right]
  intro hprefix
  exact h (List.cons_prefix_cons.mp (List.cons_prefix_cons.mp hprefix).2).1.symm

theorem twoQuotes_append_of_not_mem (h : quote ∉ t) (s : Text) : TwoQuotes (t ++ s) ↔ TwoQuotes s := by
  induction t with
  | nil => exact Iff.rfl
  | cons c t ih =>
    rw [List.mem_cons, not_or] at h
    rw [List.cons_append, twoQuotes_cons_of_ne (Ne.symm h.1), ih h.2]

theorem twoQuotes_quoted (hne : t ≠ []) (h : quote ∉ t) (s : Text)
    : TwoQuotes (quote :: (t ++ s)) ↔ TwoQuotes s := by
  cases t with
  | nil => exact absurd rfl hne
  | cons c t =>
    rw [List.mem_cons, not_or] at h
    rw [List.cons_append, twoQuotes_quote_cons_of_ne (Ne.symm h.1), twoQuotes_append_of_not_mem h.2]

theorem not_twoQuotes_quote_of_not_mem (h : quote ∉ s) : ¬TwoQuotes (quote :: s) := by
  intro htwo
  have hsublist : 2 ≤ (quote :: s).count quote := htwo.sublist.count_le quote
  rw [List.count_cons_self, List.count_eq_zero.mpr h] at hsublist
  exact absurd hsublist (by decide)

theorem twoQuotes_quote_iff (h : ∀ c ∈ s.head?, c ≠ quote) : TwoQuotes (quote :: s) ↔ TwoQuotes s := by
  cases s with
  | nil => exact iff_of_false (not_twoQuotes_quote_of_not_mem List.not_mem_nil) (by simp [TwoQuotes])
  | cons c s =>
    have hc : c ≠ quote := h c rfl
    rw [twoQuotes_quote_cons_of_ne hc, twoQuotes_cons_of_ne hc]

theorem lexes_quote {rest : Text} {arguments : List Text} {e : Option FormatError}
    (h : Lexes (quote :: rest) arguments e)
    : (∀ t ∈ arguments, t ≠ [] ∧ quote ∉ t)
      ∧ ∃ left, quote :: rest = arguments.flatMap (fun t => quote :: t) ++ quote :: left
          ∧ ((e = none ∧ left.head? = some quote) ∨ (e ≠ none ∧ quote ∉ left)) := by
  induction hn : rest.length using Nat.strong_induction_on generalizing rest arguments with
  | _ n ih =>
    by_cases hmem : quote ∈ rest
    . obtain ⟨t, behind, rfl, ht⟩ := List.eq_append_cons_of_mem hmem
      have hnext := nextArgument_quoted behind ht
      by_cases hne : t = []
      . subst hne
        obtain ⟨rfl, rfl⟩ := (lexes_of_stop hnext).mp h
        exact ⟨by simp, quote :: behind, rfl, .inl ⟨rfl, rfl⟩⟩
      . obtain ⟨arguments, rfl, hrest⟩ := (lexes_cons_iff hnext hne).mp h
        have hlt : behind.length < n := by
          rw [← hn, List.length_append, List.length_cons]
          omega
        obtain ⟨hall, left, heq, hend⟩ := ih behind.length hlt hrest rfl
        refine ⟨List.forall_mem_cons.mpr ⟨⟨hne, ht⟩, hall⟩, left, ?_, hend⟩
        rw [heq, List.flatMap_cons, List.append_assoc, List.cons_append]
    . obtain ⟨rfl, rfl⟩ := (lexes_of_throws (nextArgument_unterminated hmem)).mp h
      exact ⟨by simp, rest, rfl, .inr ⟨by simp, hmem⟩⟩

theorem twoQuotes_flatMap {arguments : List Text} (h : ∀ t ∈ arguments, t ≠ [] ∧ quote ∉ t) (s : Text)
    : TwoQuotes (arguments.flatMap (fun t => quote :: t) ++ s) ↔ TwoQuotes s := by
  induction arguments with
  | nil => exact Iff.rfl
  | cons t arguments ih =>
    rw [List.forall_mem_cons] at h
    rw [List.flatMap_cons, List.append_assoc, List.cons_append, twoQuotes_quoted h.1.1 h.1.2, ih h.2]

theorem lexes_quote_iff {rest : Text} {arguments : List Text} {e : Option FormatError}
    (h : Lexes (quote :: rest) arguments e)
    : e = none ↔ TwoQuotes (quote :: rest) := by
  obtain ⟨hall, left, heq, hend⟩ := lexes_quote h
  rw [heq, twoQuotes_flatMap hall]
  rcases hend with ⟨rfl, hhead⟩ | ⟨hne, hnot⟩
  . refine iff_of_true rfl ?_
    cases left with
    | nil => cases hhead
    | cons c left =>
      rw [Option.some.inj hhead]
      exact ⟨[], left, rfl⟩
  . exact iff_of_false hne (not_twoQuotes_quote_of_not_mem hnot)

end

theorem isDelimiter_of_isBlank {c : Char} (h : ParameterConvert.isBlank c = true)
    : isDelimiter c = true ∧ c ≠ quote := by
  refine ⟨by simp [isDelimiter, isWhite, h], ?_⟩
  rintro rfl
  exact absurd h (by decide)

theorem isWhite_eq_false {c : Char} (h : isDelimiter c = false) : isWhite c = false := by
  cases hwhite : isWhite c with
  | false => rfl
  | true => exact absurd h (by simp [isDelimiter, hwhite])

theorem PlainText.quote_not_mem (t : PlainText) : quote ∉ t.val := by
  intro hmem
  exact absurd (t.property.2 quote hmem) (by simp)

theorem QuotedText.quote_not_mem (t : QuotedText) : quote ∉ t.val := by
  exact fun hmem => (t.property quote hmem).1 rfl

theorem Argument.exists_written (a : Argument) : ∃ c s, a.written = c :: s ∧ isWhite c = false := by
  cases a with
  | quoted t => exact ⟨quote, t.val ++ [quote], rfl, by decide⟩
  | plain t =>
    obtain ⟨t, hne, ht⟩ := t
    cases t with
    | nil => exact absurd rfl hne
    | cons c t => exact ⟨c, t, rfl, isWhite_eq_false (ht c List.mem_cons_self)⟩

theorem NextArgument.dropWhile_written (a : NextArgument) (s : Text)
    : (a.written ++ s).dropWhile isWhite = a.argument.written ++ s := by
  obtain ⟨c, rest, hwritten, hc⟩ := a.argument.exists_written
  unfold NextArgument.written
  rw [List.append_assoc, List.dropWhile_append_of_pos, hwritten, List.cons_append,
    List.dropWhile_cons_of_neg (by simp [hc])]
  intro c hc
  simp [isWhite, a.blanks.property c hc]

variable (first : Argument) (rest : List NextArgument) (comment : Option Comment)

theorem nextArgument_tail : ∃ rest, nextArgument ((tail comment).dropWhile isWhite) = .ok ([], rest) := by
  cases comment with
  | none => exact ⟨[], rfl⟩
  | some comment =>
    unfold tail
    rw [List.dropWhile_append_of_pos (fun c hc => by simp [isWhite, comment.blanks.property c hc]),
      List.dropWhile_cons_of_neg (by decide)]
    refine ⟨_, nextArgument_word (t := []) (by simp) ?_⟩
    rintro c ⟨⟩
    decide

theorem isDelimiter_head
    : ∀ c ∈ (rest.flatMap NextArgument.written ++ tail comment).head?, isDelimiter c = true
        ∧ c ≠ quote := by
  have hblanks : ∀ (blanks : Blanks) (s : Text),
    (blanks.val = [] → ∀ c ∈ s.head?, isDelimiter c = true ∧ c ≠ quote) →
      ∀ c ∈ (blanks.val ++ s).head?, isDelimiter c = true ∧ c ≠ quote := by
    rintro ⟨blanks, hblank⟩ s hs
    cases blanks with
    | nil => exact hs rfl
    | cons b blanks =>
      rintro c ⟨⟩
      exact isDelimiter_of_isBlank (hblank b List.mem_cons_self)
  cases rest with
  | cons a rest =>
    rw [List.flatMap_cons, NextArgument.written, List.append_assoc, List.append_assoc]
    exact hblanks a.blanks _ (fun hnil => absurd hnil a.blanks_ne_nil)
  | nil =>
    cases comment with
    | none =>
      intro c hc
      cases hc
    | some comment =>
      refine hblanks comment.blanks _ (fun _ => ?_)
      rintro c ⟨⟩
      decide

def values (first : Argument) (rest : List NextArgument) : List Text :=
  first.value :: rest.map (fun a => a.argument.value)

def textFrom (first : Argument) (rest : List NextArgument) : Text :=
  first.written ++ rest.flatMap NextArgument.written

theorem dropWhile_cons (a : NextArgument) (rest : List NextArgument) (comment : Option Comment)
    : ((a :: rest).flatMap NextArgument.written ++ tail comment).dropWhile isWhite
        = textFrom a.argument rest ++ tail comment := by
  rw [List.flatMap_cons, List.append_assoc, a.dropWhile_written, textFrom, List.append_assoc]

theorem lexes_plain_iff (t : PlainText) (rest : List NextArgument) (comment : Option Comment)
    {arguments : List Text}
    {e : Option FormatError}
    : Lexes (textFrom (.plain t) rest ++ tail comment) arguments e
        ↔
      ∃ arguments', arguments = t.val :: arguments'
        ∧ Lexes ((rest.flatMap NextArgument.written ++ tail comment).dropWhile isWhite) arguments' e := by
  refine lexes_cons_iff ?_ t.property.1
  rw [textFrom, List.append_assoc]
  exact nextArgument_word t.property.2 (isDelimiter_head rest comment)

theorem lexes_of_plain (hfirst : ¬first.IsQuoted)
    (hrest : ∀ a ∈ rest, ¬a.argument.IsQuoted)
    : Lexes (textFrom first rest ++ tail comment) (values first rest) none := by
  induction rest generalizing first with
  | nil =>
    cases first with
    | quoted t => exact absurd trivial hfirst
    | plain t =>
      rw [lexes_plain_iff]
      obtain ⟨left, hstop⟩ := nextArgument_tail comment
      exact ⟨[], rfl, .stop hstop⟩
  | cons a rest ih =>
    rw [List.forall_mem_cons] at hrest
    cases first with
    | quoted t => exact absurd trivial hfirst
    | plain t =>
      rw [lexes_plain_iff, dropWhile_cons]
      exact ⟨_, rfl, ih a.argument hrest.1 hrest.2⟩

theorem not_twoQuotes_textFrom (h : ∀ v ∈ values first rest, v ≠ [])
    : ¬TwoQuotes (textFrom first rest) := by
  induction rest generalizing first with
  | nil =>
    rw [textFrom, List.flatMap_nil, List.append_nil]
    cases first with
    | plain t =>
      rw [← List.append_nil (Argument.plain t).written]
      exact fun htwo => absurd ((twoQuotes_append_of_not_mem t.quote_not_mem []).mp htwo)
        (by simp [TwoQuotes])
    | quoted t =>
      have hne : t.val ≠ [] := h t.val List.mem_cons_self
      exact fun htwo => not_twoQuotes_quote_of_not_mem List.not_mem_nil
        ((twoQuotes_quoted hne t.quote_not_mem [quote]).mp htwo)
  | cons a rest ih =>
    have hrest := ih a.argument (fun v hv => h v (List.mem_cons_of_mem _ hv))
    have hbehind : TwoQuotes ((a :: rest).flatMap NextArgument.written)
        ↔ TwoQuotes (textFrom a.argument rest) := by
      have hblanks : quote ∉ a.blanks.val := fun hmem => absurd (a.blanks.property quote hmem) (by decide)
      rw [List.flatMap_cons, NextArgument.written, List.append_assoc, twoQuotes_append_of_not_mem hblanks]
      rfl
    cases first with
    | plain t =>
      exact fun htwo => hrest (hbehind.mp ((twoQuotes_append_of_not_mem t.quote_not_mem _).mp htwo))
    | quoted t =>
      have hne : t.val ≠ [] := h t.val List.mem_cons_self
      have hhead := isDelimiter_head (a :: rest) none
      rw [tail, List.append_nil] at hhead
      rw [textFrom, Argument.written, List.append_assoc, List.cons_append,
        twoQuotes_quoted hne t.quote_not_mem, List.cons_append,
        List.nil_append, twoQuotes_quote_iff (fun c hc => (hhead c hc).2), hbehind]
      exact hrest

theorem length_flatMap_le
    : ((rest.map (fun a => a.argument.value)).flatMap (fun t => quote :: t)).length
        ≤ (rest.flatMap NextArgument.written).length := by
  induction rest with
  | nil => exact Nat.le_refl 0
  | cons a rest ih =>
    have hblanks := List.length_pos_iff.mpr a.blanks_ne_nil
    have hwritten : a.argument.value.length ≤ a.argument.written.length := by
      cases a.argument with
      | plain t => exact Nat.le_refl _
      | quoted t =>
        simp only [Argument.value, Argument.written, List.length_append, List.length_cons]
        omega
    simp only [List.map_cons, List.flatMap_cons, List.length_append, List.length_cons,
      NextArgument.written]
    omega

theorem not_lexes_quoted (t : QuotedText) (rest : List NextArgument) (comment : Option Comment)
    : ¬Lexes (textFrom (.quoted t) rest ++ tail comment) (values (.quoted t) rest) none := by
  intro hlexes
  obtain ⟨hall, left, heq, ⟨-, hhead⟩ | ⟨hne, -⟩⟩ := lexes_quote hlexes
  . have hnot := not_twoQuotes_textFrom (.quoted t) rest (fun v hv => (hall v hv).1)
    have hlength := length_flatMap_le rest
    cases left with
    | nil => cases hhead
    | cons c left =>
      cases hhead
      -- the two quotes are in front of the comment, since all of the text between quotes is not as long as what is written
      change textFrom (.quoted t) rest ++ tail comment = _ at heq
      rw [List.append_eq_append_iff] at heq
      have hshort : ((values (.quoted t) rest).flatMap (fun t => quote :: t)).length
          < (textFrom (.quoted t) rest).length := by
        have hvalue : (Argument.quoted t).value = t.val := rfl
        have hwritten : (Argument.quoted t).written = quote :: t.val ++ [quote] := rfl
        simp only [values, textFrom, hvalue, hwritten, List.flatMap_cons, List.length_append,
          List.length_cons, List.length_nil]
        omega
      rcases heq with ⟨more, hmore, -⟩ | ⟨more, hmore, htail⟩
      . rw [hmore, List.length_append] at hshort
        omega
      . match more, hmore, htail with
        | [], hmore, _ =>
          rw [hmore, List.append_nil] at hshort
          exact absurd hshort (Nat.lt_irrefl _)
        | [c], _, htail =>
          have hnext : quote :: left = tail comment := (List.cons.inj htail).2
          have hdelimiter := isDelimiter_head [] comment
          rw [← hnext] at hdelimiter
          exact (hdelimiter quote rfl).2 rfl
        | c :: c' :: more, hmore, htail =>
          obtain ⟨hc, htail⟩ := List.cons.inj htail
          obtain ⟨hc', -⟩ := List.cons.inj htail
          rw [hmore, ← hc, ← hc'] at hnot
          exact hnot ⟨_, more, List.append_assoc _ _ _⟩
  . exact hne rfl

theorem lexes_values_iff
    : Lexes (textFrom first rest ++ tail comment) (values first rest) none
        ↔
      ¬(first.IsQuoted ∨ ∃ a ∈ rest, a.argument.IsQuoted) := by
  constructor
  . intro hlexes
    induction rest generalizing first with
    | nil =>
      cases first with
      | quoted t => exact absurd hlexes (not_lexes_quoted t [] comment)
      | plain t => simp [Argument.IsQuoted]
    | cons a rest ih =>
      cases first with
      | quoted t => exact absurd hlexes (not_lexes_quoted t (a :: rest) comment)
      | plain t =>
        rw [lexes_plain_iff, dropWhile_cons] at hlexes
        obtain ⟨arguments, heq, hrest⟩ := hlexes
        obtain rfl := (List.cons.inj heq).2
        have hnot := ih a.argument hrest
        simpa [Argument.IsQuoted] using hnot
  . intro hnot
    rw [not_or] at hnot
    exact lexes_of_plain first rest comment hnot.1 (fun a ha hquoted => hnot.2 ⟨a, ha, hquoted⟩)

theorem head_eq_of_lexes {first : Argument} {rest : List NextArgument} {comment : Option Comment}
    {time : Text}
    {arguments : List Text} {e : Option FormatError}
    (h : Lexes (textFrom first rest ++ tail comment) (time :: arguments) e)
    : time = first.value := by
  cases first with
  | plain t =>
    obtain ⟨_, heq, -⟩ := (lexes_plain_iff t rest comment).mp h
    exact (List.cons.inj heq).1
  | quoted t =>
    have hnext := nextArgument_quoted (rest.flatMap NextArgument.written ++ tail comment) t.quote_not_mem
    have htext : textFrom (.quoted t) rest ++ tail comment
        = quote :: (t.val ++ quote :: (rest.flatMap NextArgument.written ++ tail comment)) := by
      simp [textFrom, Argument.written]
    rw [htext] at h
    by_cases hne : t.val = []
    . rw [hne] at hnext
      rw [hne] at h
      exact absurd ((lexes_of_stop hnext).mp h).1 (List.cons_ne_nil _ _)
    . obtain ⟨_, heq, -⟩ := (lexes_cons_iff hnext hne).mp h
      exact (List.cons.inj heq).1

theorem Sentence.dropWhile_text (sentence : Sentence)
    : sentence.text.dropWhile ParameterConvert.isBlank = textFrom sentence.time sentence.rest
        ++ tail sentence.comment := by
  obtain ⟨c, s, hwritten, hc⟩ := sentence.time.exists_written
  have hblank : ParameterConvert.isBlank c = false := by
    cases hblank : ParameterConvert.isBlank c with
    | false => rfl
    | true => exact absurd hc (by simp [isWhite, hblank])
  unfold Sentence.text textFrom
  rw [hwritten, List.cons_append, List.cons_append, List.dropWhile_cons_of_neg (by simp [hblank])]

section

variable {δ : Type} [Zero δ] (f : ParameterConvert.Floating δ)

def Sentence.outputs (sentence : Sentence) (eventTime : δ) : Outputs δ :=
  ⟨eventTime, sentence.eventType.argument.value, sentence.moduleId.argument.value,
    sentence.inputArguments.map (fun a => a.argument.value)⟩

theorem Sentence.parse_iff (sentence : Sentence) {eventTime : δ}
    (htime : toFloat f sentence.time.value = .ok eventTime)
    : parse f sentence.text = .ok (true, sentence.outputs eventTime) ↔ ¬sentence.IsQuoted := by
  rw [Sentence.IsQuoted, ← lexes_values_iff sentence.time sentence.rest sentence.comment]
  constructor
  . intro hparse
    obtain ⟨arguments, e, hlexes⟩ := exists_lexes (sentence.text.dropWhile ParameterConvert.isBlank)
    rw [parse_eq f hlexes] at hparse
    rw [sentence.dropWhile_text] at hlexes
    have hfinish : ∀ {argumentCount : Nat} {outputs : Outputs δ},
        finish sentence.text e argumentCount outputs = .ok (true, sentence.outputs eventTime) →
          e = none ∧ 3 ≤ argumentCount ∧ outputs = sentence.outputs eventTime := by
      intro argumentCount outputs hok
      cases e with
      | some e => cases hok
      | none =>
        injection hok with hok
        obtain ⟨hcount, houtputs⟩ := Prod.mk.inj hok
        exact ⟨rfl, of_decide_eq_true hcount, houtputs⟩
    match arguments with
    | [] => exact absurd (hfinish hparse).2.1 (by simp)
    | time :: arguments =>
      obtain rfl := head_eq_of_lexes hlexes
      match arguments with
      | [] =>
        obtain ⟨outputs, houtputs⟩ := addArguments_cons f sentence.time.value [] ⟨0, [], [], []⟩ htime
        rw [houtputs] at hparse
        exact absurd (hfinish hparse).2.1 (by simp)
      | [moduleId] =>
        obtain ⟨outputs, houtputs⟩ := addArguments_cons f sentence.time.value [moduleId]
          ⟨0, [], [], []⟩ htime
        rw [houtputs] at hparse
        exact absurd (hfinish hparse).2.1 (by simp)
      | moduleId :: eventType :: arguments =>
        rw [addArguments_sentence f sentence.time.value moduleId eventType arguments _ htime] at hparse
        obtain ⟨rfl, -, houtputs⟩ := hfinish hparse
        obtain ⟨-, rfl, rfl, rfl⟩ := (Outputs.mk.injEq ..).mp houtputs
        exact hlexes
  . intro hlexes
    rw [← sentence.dropWhile_text] at hlexes
    rw [parse_eq f hlexes]
    unfold values Sentence.rest
    simp only [List.map_cons]
    rw [addArguments_sentence f _ _ _ _ _ htime]
    rfl

end

end Eel
end Emane
