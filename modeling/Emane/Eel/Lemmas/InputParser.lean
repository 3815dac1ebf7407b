import Mathlib.Data.List.TakeWhile
import Emane.Eel.Impl.InputParser

/-!
This module contains how a line is taken apart.
-/

namespace Emane
namespace Eel

@[simp]
theorem isDelimiter_quote : InputParser.isDelimiter quote = true := by
  decide

@[simp]
theorem isWhite_quote : InputParser.isWhite quote = false := by
  decide

namespace InputParser

def nextArgument (s : Text) : Except FormatError (Text × Text) :=
  match s.dropWhile (fun c => !isDelimiter c) with
  | [] => .ok (s, [])
  | c :: behind =>
    if c = quote then
      if s.head? = some quote then
        if quote ∈ behind then
          .ok (behind.takeWhile (fun c => c ≠ quote), behind.dropWhile (fun c => c ≠ quote))
        else
          .error .unterminatedString
      else
        .error .invalidStartOfString
    else
      .ok (s.takeWhile (fun c => !isDelimiter c), (c :: behind).dropWhile isWhite)

def At (input left : Text) (pos : Option Nat) : Prop :=
  (left = [] ∧ pos = none) ∨ (left ≠ [] ∧ ∃ front, input = front ++ left ∧ pos = some front.length)

variable (p : Char → Bool) (front s : Text)

theorem findIdx?_eq
    : s.findIdx? p = if s.dropWhile (fun c => !p c) = [] then none else some
        (s.takeWhile (fun c => !p c)).length := by
  induction s with
  | nil => rfl
  | cons c s ih =>
    rw [List.findIdx?_cons, ih]
    cases hc : p c with
    | true => simp [hc]
    | false =>
      simp only [hc, Bool.not_false, List.dropWhile_cons_of_pos, List.takeWhile_cons_of_pos,
        List.length_cons]
      rw [if_neg Bool.false_ne_true, apply_ite (Option.map _)]
      rfl

theorem findFirst_append
    : findFirst p (front ++ s) front.length
        =
      if s.dropWhile (fun c => !p c) = [] then none else some
          (front.length + (s.takeWhile (fun c => !p c)).length) := by
  unfold findFirst
  rw [List.drop_left, findIdx?_eq]
  split
  . rfl
  . rfl

theorem at_findFirst
    : At (front ++ s) (s.dropWhile (fun c => !p c)) (findFirst p (front ++ s) front.length) := by
  rw [findFirst_append]
  split
  . next hnil => exact .inl ⟨hnil, rfl⟩
  . next hne =>
    refine .inr ⟨hne, front ++ s.takeWhile (fun c => !p c), ?_, ?_⟩
    . rw [List.append_assoc, List.takeWhile_append_dropWhile]
    . rw [List.length_append]

theorem substr_append (t s : Text) : substr (front ++ (t ++ s)) front.length t.length = t := by
  unfold substr
  rw [List.drop_left, List.take_left]

theorem dropWhile_ne_quote_eq_nil_iff : s.dropWhile (fun c => !decide (c = quote)) = [] ↔ quote ∉ s := by
  rw [List.dropWhile_eq_nil_iff]
  constructor
  . intro h hmem
    simpa using h quote hmem
  . intro h c hc
    have hne : c ≠ quote := fun heq => h (heq ▸ hc)
    simp [hne]

theorem takeWhile_ne_quote {t : Text} (h : quote ∉ t)
    : (t ++ quote :: s).takeWhile (fun c => !decide (c = quote)) = t := by
  rw [List.takeWhile_append_of_pos, List.takeWhile_cons_of_neg (by simp), List.append_nil]
  intro c hc
  simpa using fun heq : c = quote => h (heq ▸ hc)

theorem dropWhile_ne_quote {t : Text} (h : quote ∉ t)
    : (t ++ quote :: s).dropWhile (fun c => !decide (c = quote)) = quote :: s := by
  rw [List.dropWhile_append_of_pos, List.dropWhile_cons_of_neg (by simp)]
  intro c hc
  simpa using fun heq : c = quote => h (heq ▸ hc)

theorem getNextArgument_eq {input left : Text} {pos : Option Nat} (h : At input left pos)
    : (∃ e, nextArgument left = .error e ∧ getNextArgument input pos = .error (.format e input))
        ∨ (∃ argument rest pos', nextArgument left = .ok (argument, rest)
          ∧ getNextArgument input pos = .ok (argument, pos')
        ∧ At input rest pos') := by
  rcases h with ⟨rfl, rfl⟩ | ⟨hne, front, rfl, rfl⟩
  . exact .inr ⟨[], [], none, rfl, rfl, .inl ⟨rfl, rfl⟩⟩
  . have hsplit := List.takeWhile_append_dropWhile (p := fun c => !isDelimiter c) (l := left)
    have hword := fun c hc => List.mem_takeWhile_imp (p := fun c => !isDelimiter c)
      (l := left) (x := c) hc
    simp only [getNextArgument, nextArgument, findFirst_append]
    generalize hw : left.takeWhile (fun c => !isDelimiter c) = word at hsplit hword
    cases hafter : left.dropWhile (fun c => !isDelimiter c) with
    | nil =>
      rw [if_pos rfl]
      refine .inr ⟨left, [], none, rfl, ?_, .inl ⟨rfl, rfl⟩⟩
      simp only [List.drop_left]
    | cons c behind =>
      rw [hafter] at hsplit
      subst hsplit
      rw [if_neg (List.cons_ne_nil _ _)]
      have hend : (front ++ (word ++ c :: behind))[front.length + word.length]? = some c := by
        rw [← List.append_assoc, ← List.length_append, List.getElem?_append_right (Nat.le_refl _),
          Nat.sub_self]
        rfl
      have hstart : (front ++ (word ++ c :: behind))[front.length]? = (word ++ c :: behind).head? := by
        rw [List.getElem?_append_right (Nat.le_refl _), Nat.sub_self, List.head?_eq_getElem?]
      simp only [hend, hstart, Option.some.injEq]
      by_cases hc : c = quote
      . subst hc
        rw [if_pos rfl, if_pos rfl]
        by_cases hhead : (word ++ quote :: behind).head? = some quote
        . rw [if_pos hhead, if_pos hhead]
          obtain rfl : word = [] := by
            cases word with
            | nil => rfl
            | cons d word =>
              have hd := hword d List.mem_cons_self
              rw [Option.some.inj hhead] at hd
              exact absurd hd (by simp)
          simp only [List.nil_append, List.length_nil, Nat.add_zero]
          have hbehind := findFirst_append (fun c => c = quote) (front ++ [quote]) behind
          simp only [List.append_assoc, List.cons_append, List.nil_append, List.length_append,
            List.length_cons, List.length_nil,
            Nat.zero_add, dropWhile_ne_quote_eq_nil_iff] at hbehind
          rw [hbehind]
          by_cases hmem : quote ∈ behind
          . rw [if_neg (not_not.mpr hmem), if_pos hmem]
            obtain ⟨t, rest, rfl, ht⟩ := List.eq_append_cons_of_mem hmem
            simp only [decide_not, takeWhile_ne_quote rest ht, dropWhile_ne_quote rest ht]
            refine .inr ⟨t, quote :: rest, findFirst (fun c => !isWhite c)
              (front ++ quote :: (t ++ quote :: rest))
              (front.length + 1 + t.length), rfl, ?_, ?_⟩
            . have hsubstr := substr_append (front ++ [quote]) t (quote :: rest)
              simp only [List.append_assoc, List.cons_append, List.nil_append, List.length_append,
                List.length_cons,
                List.length_nil, Nat.zero_add] at hsubstr
              rw [Nat.add_sub_cancel_left, hsubstr]
            . have hat := at_findFirst (fun c => !isWhite c) (front ++ quote :: t) (quote :: rest)
              simpa [List.dropWhile_cons, Nat.add_assoc, Nat.add_comm 1] using hat
          . rw [if_pos hmem, if_neg hmem]
            exact .inl ⟨.unterminatedString, rfl, rfl⟩
        . rw [if_neg hhead, if_neg hhead]
          exact .inl ⟨.invalidStartOfString, rfl, rfl⟩
      . rw [if_neg hc, if_neg hc]
        refine .inr ⟨word, (c :: behind).dropWhile isWhite, findFirst (fun c => !isWhite c)
          (front ++ (word ++ c :: behind))
          (front.length + word.length), rfl, ?_, ?_⟩
        . rw [Nat.add_sub_cancel_left, substr_append]
        . have hat := at_findFirst (fun c => !isWhite c) (front ++ word) (c :: behind)
          simpa only [List.append_assoc, List.length_append, Bool.not_not] using hat

theorem dropWhile_word {t : Text} (after : Text) (ht : ∀ c ∈ t, isDelimiter c = false)
    : (t ++ after).dropWhile (fun c => !isDelimiter c) = after.dropWhile (fun c => !isDelimiter c) := by
  refine List.dropWhile_append_of_pos (fun c hc => ?_)
  rw [ht c hc]
  rfl

theorem nextArgument_word {t after : Text} (ht : ∀ c ∈ t, isDelimiter c = false)
    (hafter : ∀ c ∈ after.head?, isDelimiter c = true ∧ c ≠ quote)
    : nextArgument (t ++ after) = .ok (t, after.dropWhile isWhite) := by
  unfold nextArgument
  rw [dropWhile_word after ht]
  cases after with
  | nil => simp
  | cons c after =>
    obtain ⟨hdelimiter, hne⟩ := hafter c rfl
    rw [List.dropWhile_cons_of_neg (by simp [hdelimiter])]
    simp only
    rw [if_neg hne, List.takeWhile_append_of_pos, List.takeWhile_cons_of_neg (by simp [hdelimiter]),
      List.append_nil]
    intro c hc
    rw [ht c hc]
    rfl

theorem nextArgument_misplaced {t : Text} (rest : Text) (hne : t ≠ [])
    (ht : ∀ c ∈ t, isDelimiter c = false)
    : nextArgument (t ++ quote :: rest) = .error .invalidStartOfString := by
  unfold nextArgument
  rw [dropWhile_word _ ht, List.dropWhile_cons_of_neg (by simp)]
  simp only
  rw [if_pos trivial, if_neg]
  cases t with
  | nil => exact absurd rfl hne
  | cons c t =>
    intro hhead
    have hc := ht c List.mem_cons_self
    rw [Option.some.inj hhead] at hc
    exact absurd hc (by simp)

theorem nextArgument_quoted {t : Text} (rest : Text) (ht : quote ∉ t)
    : nextArgument (quote :: (t ++ quote :: rest)) = .ok (t, quote :: rest) := by
  unfold nextArgument
  rw [List.dropWhile_cons_of_neg (by simp)]
  simp only
  rw [if_pos trivial, if_pos List.head?_cons, if_pos (List.mem_append_right _ List.mem_cons_self)]
  simp only [ne_eq, decide_not, takeWhile_ne_quote rest ht, dropWhile_ne_quote rest ht]

theorem nextArgument_unterminated {rest : Text} (h : quote ∉ rest)
    : nextArgument (quote :: rest) = .error .unterminatedString := by
  unfold nextArgument
  rw [List.dropWhile_cons_of_neg (by simp)]
  simp only
  rw [if_pos trivial, if_pos List.head?_cons, if_neg h]

inductive Lexes : Text → List Text → Option FormatError → Prop where
  | stop {s rest : Text} (h : nextArgument s = .ok ([], rest)) : Lexes s [] none
  | throws {s : Text} {e : FormatError} (h : nextArgument s = .error e) : Lexes s [] (some e)
  | next {s argument rest : Text} {arguments : List Text} {e : Option FormatError}
    (h : nextArgument s = .ok (argument, rest))
      (hne : argument ≠ []) (hrest : Lexes rest arguments e)
    : Lexes s (argument :: arguments) e

section

variable {s argument rest : Text} {arguments : List Text} {e : Option FormatError}

theorem lexes_cons_iff (h : nextArgument s = .ok (argument, rest)) (hne : argument ≠ [])
    : Lexes s arguments e ↔ ∃ arguments', arguments = argument :: arguments'
        ∧ Lexes rest arguments' e := by
  constructor
  . intro hlexes
    cases hlexes with
    | stop h' =>
      rw [h] at h'
      injection h' with h'
      exact absurd (Prod.mk.inj h').1 hne
    | throws h' =>
      rw [h] at h'
      cases h'
    | next h' _ hrest =>
      rw [h] at h'
      injection h' with h'
      cases h'
      exact ⟨_, rfl, hrest⟩
  . rintro ⟨arguments', rfl, hrest⟩
    exact .next h hne hrest

theorem lexes_of_stop (h : nextArgument s = .ok ([], rest))
    : Lexes s arguments e ↔ arguments = [] ∧ e = none := by
  constructor
  . intro hlexes
    cases hlexes with
    | stop _ => exact ⟨rfl, rfl⟩
    | throws h' =>
      rw [h] at h'
      cases h'
    | next h' hne _ =>
      rw [h] at h'
      injection h' with h'
      exact absurd (Prod.mk.inj h').1.symm hne
  . rintro ⟨rfl, rfl⟩
    exact .stop h

theorem lexes_of_throws {e' : FormatError} (h : nextArgument s = .error e')
    : Lexes s arguments e ↔ arguments = [] ∧ e = some e' := by
  constructor
  . intro hlexes
    cases hlexes with
    | stop h' =>
      rw [h] at h'
      cases h'
    | throws h' =>
      rw [h] at h'
      injection h' with h'
      exact ⟨rfl, congrArg some h'.symm⟩
    | next h' _ _ =>
      rw [h] at h'
      cases h'
  . rintro ⟨rfl, rfl⟩
    exact .throws h

theorem length_lt_of_nextArgument (h : nextArgument s = .ok (argument, rest)) (hne : argument ≠ [])
    : rest.length < s.length := by
  have hsplit := List.takeWhile_append_dropWhile (p := fun c => !isDelimiter c) (l := s)
  unfold nextArgument at h
  cases hafter : s.dropWhile (fun c => !isDelimiter c) with
  | nil =>
    rw [hafter] at h
    injection h with h
    cases h
    exact List.length_pos_iff.mpr hne
  | cons c behind =>
    rw [hafter] at h hsplit
    have hlength := congrArg List.length hsplit
    rw [List.length_append, List.length_cons] at hlength
    simp only at h
    split at h
    . split at h
      . split at h
        . injection h with h
          cases h
          have hle := List.length_dropWhile_le (fun c => decide (c ≠ quote)) behind
          omega
        . cases h
      . cases h
    . injection h with h
      cases h
      have hle := List.length_dropWhile_le isWhite (c :: behind)
      rw [List.length_cons] at hle
      have hpos := List.length_pos_iff.mpr hne
      omega

theorem Lexes.length_le (h : Lexes s arguments e) : arguments.length ≤ s.length := by
  induction h with
  | stop _ => exact Nat.zero_le _
  | throws _ => exact Nat.zero_le _
  | next h hne _ ih =>
    have hlt := length_lt_of_nextArgument h hne
    rw [List.length_cons]
    omega

theorem exists_lexes (s : Text) : ∃ arguments e, Lexes s arguments e := by
  induction hn : s.length using Nat.strong_induction_on generalizing s with
  | _ n ih =>
    cases h : nextArgument s with
    | error e => exact ⟨[], some e, .throws h⟩
    | ok r =>
      obtain ⟨argument, rest⟩ := r
      by_cases hne : argument = []
      . subst hne
        exact ⟨[], none, .stop h⟩
      . have hlt := length_lt_of_nextArgument h hne
        obtain ⟨arguments, e, hlexes⟩ := ih rest.length (by omega) rest rfl
        exact ⟨argument :: arguments, e, .next h hne hlexes⟩

end

section

variable {δ : Type} (f : ParameterConvert.Floating δ)

def addArguments : List Text → Nat → Outputs δ → Except Fault (Outputs δ)
  | [], _, outputs => .ok outputs
  | argument :: arguments, argumentCount, outputs => do
    let outputs ← addArgument f argument argumentCount outputs
    addArguments arguments (argumentCount + 1) outputs

def finish (input : Text) (e : Option FormatError) (argumentCount : Nat) (outputs : Outputs δ)
    : Except Fault (Bool × Outputs δ) :=
  match e with
  | some e => .error (.format e input)
  | none => .ok (argumentCount ≥ 3, outputs)

theorem parseArguments_eq {input left : Text} {arguments : List Text} {e : Option FormatError}
    (hlexes : Lexes left arguments e)
    {pos : Option Nat} (hat : At input left pos) {fuel : Nat} (hfuel : arguments.length < fuel)
    (argumentCount : Nat)
    (outputs : Outputs δ)
    : parseArguments f input fuel pos argumentCount outputs
        =
      (addArguments f arguments argumentCount outputs >>= finish input e
          (argumentCount + arguments.length)) := by
  induction hlexes generalizing pos fuel argumentCount outputs with
  | stop h =>
    obtain ⟨fuel, rfl⟩ := Nat.exists_eq_add_one.mpr (Nat.zero_lt_of_lt hfuel)
    rcases getNextArgument_eq hat with ⟨e, h', -⟩ | ⟨argument, rest, pos', h', hnext, -⟩
    . rw [h] at h'
      cases h'
    . rw [h] at h'
      injection h' with h'
      cases h'
      unfold parseArguments
      rw [hnext]
      rfl
  | throws h =>
    obtain ⟨fuel, rfl⟩ := Nat.exists_eq_add_one.mpr (Nat.zero_lt_of_lt hfuel)
    rcases getNextArgument_eq hat with ⟨e, h', hnext⟩ | ⟨argument, rest, pos', h', -, -⟩
    . rw [h] at h'
      injection h' with h'
      subst h'
      unfold parseArguments
      rw [hnext]
      rfl
    . rw [h] at h'
      cases h'
  | @next s argument rest arguments e h hne hrest ih =>
    obtain ⟨fuel, rfl⟩ := Nat.exists_eq_add_one.mpr (Nat.zero_lt_of_lt hfuel)
    rcases getNextArgument_eq hat with ⟨e, h', -⟩ | ⟨argument', rest', pos', h', hnext, hat'⟩
    . rw [h] at h'
      cases h'
    . rw [h] at h'
      injection h' with h'
      cases h'
      unfold parseArguments addArguments
      rw [hnext]
      change (if argument = [] then _ else _) = _
      rw [if_neg hne, List.length_cons]
      rw [List.length_cons] at hfuel
      cases addArgument f argument argumentCount outputs with
      | error e => rfl
      | ok outputs =>
        have hroom : arguments.length < fuel := by omega
        have hloop := ih hat' hroom (argumentCount + 1) outputs
        rw [Nat.add_right_comm, Nat.add_assoc] at hloop
        exact hloop

variable (time : Text) (arguments : List Text)

theorem addArguments_of_three_le (argumentCount : Nat) (outputs : Outputs δ)
    : addArguments f arguments (argumentCount + 3) outputs
        =
      .ok { outputs with inputArguments := outputs.inputArguments ++ arguments } := by
  induction arguments generalizing argumentCount outputs with
  | nil =>
    rw [List.append_nil]
    rfl
  | cons argument arguments ih =>
    change addArguments f arguments (argumentCount + 1 + 3) _ = _
    rw [ih, List.append_assoc]
    rfl

theorem addArguments_cons (outputs : Outputs δ) {value : δ} (h : toFloat f time = .ok value)
    : ∃ outputs', addArguments f (time :: arguments) 0 outputs = .ok outputs' := by
  unfold addArguments addArgument
  rw [h]
  match arguments with
  | [] => exact ⟨_, rfl⟩
  | [moduleId] => exact ⟨_, rfl⟩
  | moduleId :: eventType :: arguments => exact ⟨_, addArguments_of_three_le f arguments 0 _⟩

theorem addArguments_sentence (moduleId eventType : Text) (arguments : List Text)
    (outputs : Outputs δ) {value : δ}
    (h : toFloat f time = .ok value)
    : addArguments f (time :: moduleId :: eventType :: arguments) 0 outputs
        =
      .ok ⟨value, eventType, moduleId, outputs.inputArguments ++ arguments⟩ := by
  unfold addArguments addArgument
  rw [h]
  exact addArguments_of_three_le f arguments 0 _

theorem addArguments_of_error (outputs : Outputs δ) {e : Fault} (h : toFloat f time = .error e)
    : addArguments f (time :: arguments) 0 outputs = .error e := by
  unfold addArguments addArgument
  rw [h]
  rfl

variable [Zero δ]

theorem parse_eq {input : Text} {arguments : List Text} {e : Option FormatError}
    (h : Lexes (input.dropWhile ParameterConvert.isBlank) arguments e)
    : parse f input
        = (addArguments f arguments 0 ⟨0, [], [], []⟩ >>= finish input e arguments.length) := by
  have hlength := h.length_le
  have hdrop := List.length_dropWhile_le ParameterConvert.isBlank input
  have hat := at_findFirst (fun c => !ParameterConvert.isBlank c) [] input
  simp only [List.nil_append, List.length_nil, Bool.not_not] at hat
  have hrun := parseArguments_eq f h hat (Nat.lt_succ_of_le (Nat.le_trans hlength hdrop)) 0
    ⟨0, [], [], []⟩
  rw [Nat.zero_add] at hrun
  exact hrun

theorem parse_ne_endless (input : Text) : parse f input ≠ .error .endless := by
  obtain ⟨arguments, e, h⟩ := exists_lexes (input.dropWhile ParameterConvert.isBlank)
  rw [parse_eq f h]
  have hfinish : ∀ outputs : Outputs δ, finish input e arguments.length outputs ≠ .error .endless := by
    intro outputs heq
    cases e with
    | none => cases heq
    | some e => cases heq
  cases arguments with
  | nil => exact hfinish _
  | cons time arguments =>
    cases htime : toFloat f time with
    | ok value =>
      obtain ⟨outputs, houtputs⟩ := addArguments_cons f time arguments ⟨0, [], [], []⟩ htime
      rw [houtputs]
      exact hfinish outputs
    | error e' =>
      rw [addArguments_of_error f time arguments _ htime]
      intro heq
      injection heq with heq
      subst heq
      unfold toFloat at htime
      split at htime
      . cases htime
      . cases htime

end

end InputParser

end Eel
end Emane
