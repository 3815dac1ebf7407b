import Emane.Eel.Lemmas.Sentence

/-!
This module contains which lines with a bad quote are rejected.
-/

namespace Emane
namespace Eel

open InputParser

inductive FirstQuote where
  | none
  | misplaced
  | opens (behind : Text)
  deriving DecidableEq

def firstQuote : Bool → Text → FirstQuote
  | _, [] => .none
  | inWord, c :: s =>
    if c = '#' then
      .none
    else if c = quote then
      if inWord then .misplaced else .opens s
    else
      firstQuote (!ParameterConvert.isBlank c) s

inductive BadQuote : Text → Prop where
  | misplaced {s : Text} (h : firstQuote false s = .misplaced) : BadQuote s
  | unterminated {s behind : Text} (h : firstQuote false s = .opens behind)
    (hnot : quote ∉ behind) : BadQuote s
  | later {s argument rest : Text} (h : firstQuote false s = .opens (argument ++ quote :: rest))
    (hnot : quote ∉ argument)
      (hrest : BadQuote rest)
    : BadQuote s

def EndsWith (q : FirstQuote) (e : Option FormatError) : Prop :=
  match q with
  | .none => e = none
  | .misplaced => e ≠ none
  | .opens behind => e = none ↔ TwoQuotes (quote :: behind)

section

variable {s t after : Text}

theorem not_special {c : Char} (h : isDelimiter c = false)
    : c ≠ '#' ∧ c ≠ quote ∧ ParameterConvert.isBlank c = false := by
  refine ⟨?_, ?_, ?_⟩
  . rintro rfl
    exact absurd h (by decide)
  . rintro rfl
    exact absurd h (by decide)
  . cases hblank : ParameterConvert.isBlank c with
    | false => rfl
    | true => exact absurd h (by simp [(isDelimiter_of_isBlank hblank).1])

theorem firstQuote_word (ht : ∀ c ∈ t, isDelimiter c = false)
    : firstQuote true (t ++ after) = firstQuote true after := by
  induction t with
  | nil => rfl
  | cons c t ih =>
    rw [List.forall_mem_cons] at ht
    obtain ⟨hcomment, hquote, hblank⟩ := not_special ht.1
    rw [List.cons_append, firstQuote, if_neg hcomment, if_neg hquote, hblank]
    exact ih ht.2

theorem firstQuote_of_ne_nil (hne : t ≠ []) (ht : ∀ c ∈ t, isDelimiter c = false)
    : firstQuote false (t ++ after) = firstQuote true after := by
  cases t with
  | nil => exact absurd rfl hne
  | cons c t =>
    rw [List.forall_mem_cons] at ht
    obtain ⟨hcomment, hquote, hblank⟩ := not_special ht.1
    rw [List.cons_append, firstQuote, if_neg hcomment, if_neg hquote, hblank]
    exact firstQuote_word ht.2

theorem isWhite_eq_isBlank {c : Char} (h : c ≠ newline) : isWhite c = ParameterConvert.isBlank c := by
  simp [isWhite, h]

theorem firstQuote_dropWhile (hline : newline ∉ s)
    : firstQuote false (s.dropWhile isWhite) = firstQuote false s := by
  induction s with
  | nil => rfl
  | cons c s ih =>
    rw [List.mem_cons, not_or] at hline
    rw [List.dropWhile_cons]
    split
    . next hwhite =>
      rw [isWhite_eq_isBlank (Ne.symm hline.1)] at hwhite
      have hne : c ≠ '#' := by
        rintro rfl
        exact absurd hwhite (by decide)
      rw [ih hline.2, firstQuote, if_neg hne, if_neg (isDelimiter_of_isBlank hwhite).2, hwhite]
      rfl
    . rfl

theorem firstQuote_true_eq (hafter : ∀ c ∈ after.head?, isDelimiter c = true ∧ c ≠ quote)
    : firstQuote true after = firstQuote false after := by
  cases after with
  | nil => rfl
  | cons c after =>
    rw [firstQuote, firstQuote, if_neg (hafter c rfl).2, if_neg (hafter c rfl).2]

theorem endsWith_firstQuote (hline : newline ∉ s) {arguments : List Text} {e : Option FormatError}
    (h : Lexes (s.dropWhile isWhite) arguments e)
    : EndsWith (firstQuote false s) e := by
  induction hn : s.length using Nat.strong_induction_on generalizing s arguments with
  | _ n ih =>
    have hlength := List.length_dropWhile_le isWhite s
    have hsuffix := List.dropWhile_suffix isWhite (l := s)
    have hhead := List.head?_dropWhile_not isWhite s
    rw [← firstQuote_dropWhile hline]
    generalize s.dropWhile isWhite = left at h hlength hsuffix hhead
    -- a word, and what is behind it
    have hsplit := List.takeWhile_append_dropWhile (p := fun c => !isDelimiter c) (l := left)
    have hword : ∀ c ∈ left.takeWhile (fun c => !isDelimiter c), isDelimiter c = false := by
      intro c hc
      simpa using List.mem_takeWhile_imp hc
    have hdelimiter := List.head?_dropWhile_not (fun c => !isDelimiter c) left
    generalize left.takeWhile (fun c => !isDelimiter c) = word at hsplit hword
    generalize left.dropWhile (fun c => !isDelimiter c) = after at hsplit hdelimiter
    subst hsplit
    by_cases hquote : after.head? = some quote
    . obtain ⟨behind, rfl⟩ := List.head?_eq_some_iff.mp hquote
      by_cases hne : word = []
      . subst hne
        exact lexes_quote_iff h
      . rw [firstQuote_of_ne_nil hne hword]
        obtain ⟨-, rfl⟩ := (lexes_of_throws (nextArgument_misplaced behind hne hword)).mp h
        exact Option.some_ne_none _
    . have hafter : ∀ c ∈ after.head?, isDelimiter c = true ∧ c ≠ quote := by
        intro c hc
        rw [hc] at hdelimiter
        refine ⟨by simpa using hdelimiter, ?_⟩
        rintro rfl
        exact hquote hc
      have hnext := nextArgument_word hword hafter
      by_cases hne : word = []
      . subst hne
        obtain ⟨-, rfl⟩ := (lexes_of_stop hnext).mp h
        cases after with
        | nil => rfl
        | cons c after =>
          obtain ⟨hc, hne⟩ := hafter c rfl
          have hwhite : isWhite c = false := hhead
          have hcomment : c = '#' := by
            simpa [isDelimiter, hwhite, hne] using hc
          rw [List.nil_append, firstQuote, if_pos hcomment]
          rfl
      . rw [firstQuote_of_ne_nil hne hword, firstQuote_true_eq hafter]
        obtain ⟨arguments, -, hrest⟩ := (lexes_cons_iff hnext hne).mp h
        have hpos := List.length_pos_iff.mpr hne
        rw [List.length_append] at hlength
        refine ih after.length (by omega)
          (fun hmem => hline (hsuffix.subset (List.mem_append_right _ hmem))) hrest rfl

end

def timeText (s : Text) : Text :=
  match s.dropWhile ParameterConvert.isBlank with
  | [] => []
  | c :: rest =>
    if c = quote then
      rest.takeWhile (fun c => c ≠ quote)
    else
      (c :: rest).takeWhile (fun c => !isDelimiter c)

theorem eq_timeText_of_nextArgument {s argument rest : Text}
    (h : nextArgument (s.dropWhile ParameterConvert.isBlank) = .ok (argument, rest))
    : argument = timeText s := by
  unfold timeText
  cases hs : s.dropWhile ParameterConvert.isBlank with
  | nil =>
    rw [hs] at h
    injection h with h
    exact (Prod.mk.inj h).1.symm
  | cons c left =>
    rw [hs] at h
    simp only
    by_cases hc : c = quote
    . subst hc
      by_cases hmem : quote ∈ left
      . obtain ⟨t, behind, rfl, ht⟩ := List.eq_append_cons_of_mem hmem
        rw [nextArgument_quoted behind ht] at h
        injection h with h
        simp only [ne_eq, decide_not, takeWhile_ne_quote behind ht]
        exact (Prod.mk.inj h).1.symm
      . rw [nextArgument_unterminated hmem] at h
        cases h
    . rw [if_neg hc]
      unfold nextArgument at h
      split at h
      . next hafter =>
        injection h with h
        rw [List.dropWhile_eq_nil_iff] at hafter
        rw [List.takeWhile_eq_self_iff.mpr hafter]
        exact (Prod.mk.inj h).1.symm
      . split at h
        . rw [List.head?_cons, if_neg (fun hhead => hc (Option.some.inj hhead))] at h
          cases h
        . injection h with h
          exact (Prod.mk.inj h).1.symm

theorem dropWhile_isWhite {s : Text} (hline : newline ∉ s)
    : s.dropWhile isWhite = s.dropWhile ParameterConvert.isBlank := by
  induction s with
  | nil => rfl
  | cons c s ih =>
    rw [List.mem_cons, not_or] at hline
    rw [List.dropWhile_cons, List.dropWhile_cons, isWhite_eq_isBlank (Ne.symm hline.1), ih hline.2]

theorem EndsWith.none_iff {q : FirstQuote} {e : Option FormatError} (h : EndsWith q e)
    (hquote : q ≠ .none)
    : e = none ↔ ∃ behind, q = .opens behind ∧ TwoQuotes (quote :: behind) := by
  cases q with
  | none => exact absurd rfl hquote
  | misplaced =>
    refine iff_of_false h ?_
    rintro ⟨_, heq, -⟩
    cases heq
  | opens behind =>
    rw [show e = none ↔ TwoQuotes (quote :: behind) from h]
    constructor
    . exact fun htwo => ⟨behind, rfl, htwo⟩
    . rintro ⟨_, heq, htwo⟩
      injection heq with heq
      rw [heq]
      exact htwo

section

variable {δ : Type} [Zero δ] (f : ParameterConvert.Floating δ)

def EndsEarly (s : Text) : Prop :=
  (∃ behind, firstQuote false s = .opens behind ∧ TwoQuotes (quote :: behind))
    ∧ (timeText s = [] ∨ ∃ eventTime, toFloat f (timeText s) = .ok eventTime)

theorem parse_rejects_iff {s : Text} (hline : newline ∉ s) (hquote : firstQuote false s ≠ .none)
    : (∃ e, parse f s = .error e) ↔ ¬EndsEarly f s := by
  obtain ⟨arguments, e, hlexes⟩ := exists_lexes (s.dropWhile ParameterConvert.isBlank)
  have hends := hlexes
  rw [← dropWhile_isWhite hline] at hends
  have hnone := (endsWith_firstQuote hline hends).none_iff hquote
  rw [EndsEarly, ← hnone, parse_eq f hlexes]
  cases hlexes with
  | stop h =>
    have htime := eq_timeText_of_nextArgument h
    refine iff_of_false ?_ (not_not.mpr ⟨rfl, .inl htime.symm⟩)
    rintro ⟨e, heq⟩
    cases heq
  | throws h => exact iff_of_true ⟨_, rfl⟩ (fun hearly => Option.some_ne_none _ hearly.1)
  | next h hne _ =>
    rw [← eq_timeText_of_nextArgument h]
    cases htime : toFloat f _ with
    | error e' =>
      rw [addArguments_of_error f _ _ _ htime]
      refine iff_of_true ⟨e', rfl⟩ ?_
      rintro ⟨-, hnil | ⟨_, hok⟩⟩
      . exact hne hnil
      . cases hok
    | ok eventTime =>
      obtain ⟨outputs, houtputs⟩ := addArguments_cons f _ _ ⟨0, [], [], []⟩ htime
      rw [houtputs]
      cases e with
      | none =>
        refine iff_of_false ?_ (not_not.mpr ⟨rfl, .inr ⟨eventTime, rfl⟩⟩)
        rintro ⟨e, heq⟩
        cases heq
      | some e => exact iff_of_true ⟨_, rfl⟩ (fun hearly => Option.some_ne_none _ hearly.1)

theorem BadQuote.firstQuote_ne_none {s : Text} (h : BadQuote s) : firstQuote false s ≠ .none := by
  cases h with
  | misplaced h =>
    rw [h]
    exact FirstQuote.noConfusion
  | unterminated h _ =>
    rw [h]
    exact FirstQuote.noConfusion
  | later h _ _ =>
    rw [h]
    exact FirstQuote.noConfusion

/--
A sentence is read as it is written if and only if it has no quotes, a line with a bad quote is
rejected if and only if it does not end early, and every line comes to its end.
-/
theorem parse_exact
    : (∀ (sentence : Sentence) (eventTime : δ), toFloat f sentence.time.value = .ok eventTime →
        (parse f sentence.text = .ok (true, sentence.outputs eventTime) ↔ ¬sentence.IsQuoted))
      ∧ (∀ line : Text, newline ∉ line → BadQuote line
        → ((∃ e, parse f line = .error e) ↔ ¬EndsEarly f line))
      ∧ ∀ line : Text, parse f line ≠ .error .endless := by
  refine ⟨?_, ?_, parse_ne_endless f⟩
  . intro sentence eventTime htime
    exact sentence.parse_iff f htime
  . intro line hline hbad
    exact parse_rejects_iff f hline hbad.firstQuote_ne_none

end

def wholeNumbers : ParameterConvert.Floating Nat where
  lt := fun m n => m < n
  strtod := fun s => (Nat.ofDigitChars 10 (s.takeWhile Char.isDigit) 0, false, s.dropWhile Char.isDigit)
  lowest := 0
  max := 2^1023
  floatLowest := 0
  floatMax := 2^127
  toFloat := fun n => n

def word (c : Char) (h : isDelimiter c = false) : Argument :=
  .plain ⟨[c], List.cons_ne_nil _ _, by simpa using h⟩

def behindBlank (argument : Argument) : NextArgument :=
  ⟨⟨[' '], List.forall_mem_singleton.mpr rfl⟩, by simp, argument⟩

def quotedSentence : Sentence where
  time := word '1' (by decide)
  moduleId := behindBlank (word 'm' (by decide))
  eventType := behindBlank (word 'e' (by decide))
  inputArguments := [behindBlank (.quoted ⟨['a'], List.forall_mem_singleton.mpr (by decide)⟩)]
  comment := none

theorem parse_quotedSentence
    : toFloat wholeNumbers quotedSentence.time.value = .ok 1
      ∧ parse wholeNumbers quotedSentence.text = .error
          (.format .unterminatedString quotedSentence.text) := by
  decide

def plainSentence : Sentence :=
  { quotedSentence with inputArguments := [behindBlank (word 'a' (by decide))] }

def openLine : Text :=
  ['1', ' ', quote, 'a']

theorem parse_exact_wholeNumbers
    : parse wholeNumbers plainSentence.text = .ok (true, plainSentence.outputs 1)
      ∧ ∃ e, parse wholeNumbers openLine = .error e := by
  have hplain : ¬plainSentence.IsQuoted := by
    rintro (htime | ⟨a, ha, hquoted⟩)
    . exact htime
    . simp only [plainSentence, quotedSentence, Sentence.rest, List.mem_cons, List.not_mem_nil,
        or_false] at ha
      rcases ha with rfl | rfl | rfl
      . exact hquoted
      . exact hquoted
      . exact hquoted
  have hopens : firstQuote false openLine = .opens ['a'] := by decide
  refine ⟨((parse_exact wholeNumbers).1 plainSentence 1 (by decide)).mpr hplain, ?_⟩
  refine ((parse_exact wholeNumbers).2.1 openLine (by decide) (.unterminated hopens (by decide))).mpr ?_
  rintro ⟨⟨behind, hbehind, htwo⟩, -⟩
  injection hbehind with hbehind
  subst hbehind
  exact absurd htwo (not_twoQuotes_quote_of_not_mem (by decide))

end Eel
end Emane
