import Emane.Lib.Spelling

/-!
This module contains programs that recognise a grammar: they take exactly the texts of the grammar
from the front of a stream and return what the grammar makes of them.
-/

namespace Emane

open Numeral

namespace InputStream

def wordText : Grammar UInt8 (List UInt8) :=
  fun w text rest =>
    ∃ blanks,
      text = blanks ++ w
        ∧ (∀ c ∈ blanks, isSpace c = true)
        ∧ (∀ c ∈ w, isSpace c = false)
        ∧ (rest = [] ∨ (w ≠ [] ∧ ∀ c ∈ rest.head?, isSpace c = true))

end InputStream

namespace Scan

open InputStream

variable {ε β γ : Type}

structure Recognises (r : Scan ε β) (g : Grammar UInt8 β) : Prop where
  sound : ∀ {st b st'}, st.Settled → r.run st = .ok (b, st')
    → st'.Settled ∧ ∃ text, st.rest = text ++ st'.rest ∧ g b text st'.rest
  complete : ∀ {st b text rest}, st.Settled → st.rest = text ++ rest → g b text rest
    → ∃ st', r.run st = .ok (b, st') ∧ st'.rest = rest

section

variable {r : Scan ε β} {f : β → Scan ε γ} {g : Grammar UInt8 β} {h : β → Grammar UInt8 γ} {b : β} {c : γ}
variable {st st' st₂ : InputStream}

theorem run_bind_eq_ok (hrun : (r >>= f).run st = .ok (c, st₂))
    : ∃ b st', r.run st = .ok (b, st') ∧ (f b).run st' = .ok (c, st₂) := by
  rw [StateT.run_bind] at hrun
  cases hr : r.run st with
  | error e =>
    rw [hr] at hrun
    cases hrun
  | ok x =>
    rw [hr] at hrun
    exact ⟨x.1, x.2, rfl, hrun⟩

theorem run_bind_of_ok (hr : r.run st = .ok (b, st'))
    : (r >>= f).run st = (f b).run st' := by
  rw [StateT.run_bind, hr]
  rfl

theorem Recognises.pure (b : β)
    : Recognises (Pure.pure b : Scan ε β) (Pure.pure b) := by
  constructor
  . intro st b' st' hst hrun
    cases hrun
    exact ⟨hst, [], rfl, rfl, rfl⟩
  . rintro st b' text rest hst hrest ⟨rfl, rfl⟩
    exact ⟨st, rfl, hrest⟩

theorem Recognises.bind (hr : Recognises r g) (hf : ∀ b, Recognises (f b) (h b))
    : Recognises (r >>= f) (g >>= h) := by
  constructor
  . intro st c st₂ hst hrun
    obtain ⟨b, st', hb, hc⟩ := run_bind_eq_ok hrun
    obtain ⟨hst', text₁, hrest, hg⟩ := hr.sound hst hb
    obtain ⟨hst₂, text₂, hrest', hh⟩ := (hf b).sound hst' hc
    rw [hrest'] at hrest hg
    exact ⟨hst₂, text₁ ++ text₂, by rw [hrest, List.append_assoc], Grammar.bind_intro hg hh⟩
  . rintro st c text rest hst hrest ⟨b, text₁, text₂, rfl, hg, hh⟩
    rw [List.append_assoc] at hrest
    obtain ⟨st', hb, hrest'⟩ := hr.complete hst hrest hg
    obtain ⟨hst', -⟩ := hr.sound hst hb
    obtain ⟨st₂, hc, hrest₂⟩ := (hf b).complete hst' hrest' hh
    exact ⟨st₂, (run_bind_of_ok hb).trans hc, hrest₂⟩

theorem Recognises.reject (hr : Recognises r g) (bad : β → Prop) [DecidablePred bad] (e : ε) (k : β → γ)
    : Recognises (r >>= fun b => if bad b then throw e else Pure.pure (k b))
        (g.filter (fun b => ¬ bad b) >>= fun b => Pure.pure (k b)) := by
  constructor
  . intro st c st₂ hst hrun
    obtain ⟨b, st', hb, hc⟩ := run_bind_eq_ok hrun
    by_cases hbad : bad b
    . rw [if_pos hbad] at hc
      cases hc
    . rw [if_neg hbad] at hc
      cases hc
      obtain ⟨hst', text, hrest, hg⟩ := hr.sound hst hb
      exact ⟨hst', text, hrest, Grammar.bind_pure_intro (g := g.filter _) ⟨hg, hbad⟩⟩
  . rintro st c text rest hst hrest ⟨b, text₁, text₂, rfl, ⟨hg, hbad⟩, rfl, rfl⟩
    rw [List.append_nil] at hrest
    obtain ⟨st', hb, hrest'⟩ := hr.complete hst hrest hg
    refine ⟨st', ?_, hrest'⟩
    rw [run_bind_of_ok hb, if_neg hbad]
    rfl

theorem Recognises.unlessFail (hr : Recognises r g)
    (hne : ∀ {b text rest}, g b text rest → text ≠ []) (e : ε)
    : Recognises (get >>= fun ss => if ss.fail = true then throw e else r) g := by
  have hrun : ∀ st : InputStream,
    (get >>= fun ss => if ss.fail = true then throw e else r : Scan ε β).run st
      = if st.fail = true then throw e else r.run st := by
    intro st
    change StateT.run (if st.fail = true then _ else _) st = _
    split <;> rfl
  constructor
  . intro st b st' hst hok
    rw [hrun] at hok
    split at hok
    . cases hok
    . exact hr.sound hst hok
  . intro st b text rest hst hrest hg
    have hsome : st.rest ≠ [] := by
      rw [hrest]
      simp [hne hg]
    have hfail : ¬ st.fail = true := by
      rw [hst.eq_ofText hsome]
      exact Bool.false_ne_true
    rw [hrun, if_neg hfail]
    exact hr.complete hst hrest hg

theorem recognises_extract (e : ε) (base : Nat) (hbase : base ≤ 16) (width : Nat)
    : Recognises (extract e base width) (number base width) := by
  have hrun : ∀ st, (extract e base width).run st
      = if (unsigned base width 0 st).2.fail then throw e
        else Pure.pure (unsigned base width 0 st) := by
    intro st
    change StateT.run (if (unsigned base width 0 st).2.fail = true then throw e else Pure.pure _) _ = _
    split <;> rfl
  constructor
  . intro st n st' hst hok
    rw [hrun] at hok
    by_cases hfail : (unsigned base width 0 st).2.fail = true
    . rw [if_pos hfail] at hok
      cases hok
    . rw [if_neg hfail] at hok
      have heq := Except.ok.inj hok
      obtain ⟨hst', text, hrest, hnumber⟩ := number_of_unsigned hst (Bool.eq_false_iff.mpr hfail)
      rw [heq] at hst' hrest hnumber
      exact ⟨hst', text, hrest, hnumber⟩
  . intro st n text rest hst hrest hnumber
    rw [hrun, unsigned_of_number 0 hbase hst hrest hnumber]
    exact ⟨_, rfl, rfl⟩

theorem peek_of_settled (hst : st.Settled)
    : (st.rest = [] ∧ (peek st).1 = none ∧ (peek st).2.rest = [] ∧ (peek st).2.eof = true)
        ∨ ∃ c cs, st = ofText (c :: cs) ∧ peek st = (some c, st) := by
  rcases hst.eq_ofText_or with hof | ⟨hnil, heof⟩
  . generalize st.rest = text at hof ⊢
    subst hof
    cases text with
    | nil => exact Or.inl ⟨rfl, rfl, rfl, rfl⟩
    | cons c cs => exact Or.inr ⟨c, cs, rfl, rfl⟩
  . left
    simp [peek, good, heof, hnil]

theorem get_of_settled (hst : st.Settled)
    : (st.rest = [] ∧ (InputStream.get st).1 = none)
        ∨ ∃ c cs, st = ofText (c :: cs) ∧ InputStream.get st = (some c, ofText cs) := by
  rcases hst.eq_ofText_or with hof | ⟨hnil, heof⟩
  . generalize st.rest = text at hof ⊢
    subst hof
    cases text with
    | nil => exact Or.inl ⟨rfl, rfl⟩
    | cons c cs => exact Or.inr ⟨c, cs, rfl, rfl⟩
  . left
    simp [InputStream.get, good, heof, hnil]

theorem run_skip (c : UInt8) (st : InputStream)
    : (skip c : Scan ε Unit).run st
        = .ok ((), if (peek st).1 = some c then ignore (peek st).2 else (peek st).2) := by
  change StateT.run (if (peek st).1 = some c then _ else _) _ = _
  split <;> rfl

theorem recognises_skip (c : UInt8)
    : Recognises (skip c : Scan ε Unit) (Grammar.optional c) := by
  have hread : ∀ st, st.Settled → ∃ st', (skip c : Scan ε Unit).run st = .ok ((), st') ∧ st'.Settled
      ∧ st'.rest = if st.rest.head? = some c then st.rest.tail else st.rest := by
    intro st hst
    refine ⟨_, run_skip c st, ?_⟩
    rcases peek_of_settled hst with ⟨hnil, hpeek, hnil', heof⟩ | ⟨c', cs, rfl, hpeek⟩
    . rw [hpeek, hnil, if_neg (by simp), if_neg (by simp)]
      exact ⟨Or.inr ⟨hnil', heof⟩, hnil'⟩
    . have hhead : (ofText (c' :: cs)).rest.head? = some c' := rfl
      rw [hpeek, hhead]
      by_cases heq : c' = c
      . rw [if_pos (congrArg some heq), if_pos (congrArg some heq)]
        exact ⟨Or.inl rfl, rfl⟩
      . have hne : some c' ≠ some c := fun h => heq (Option.some.inj h)
        rw [if_neg hne, if_neg hne]
        exact ⟨Or.inl rfl, rfl⟩
  constructor
  . intro st u st' hst hrun
    obtain ⟨st₂, hrun₂, hst₂, hrest⟩ := hread st hst
    rw [hrun] at hrun₂
    cases hrun₂
    refine ⟨hst₂, ?_⟩
    split at hrest
    . next hhead =>
      refine ⟨[c], ?_, Or.inl rfl⟩
      rw [hrest, List.singleton_append]
      exact (List.cons_head?_tail hhead).symm
    . next hhead => exact ⟨[], hrest.symm, Or.inr ⟨rfl, by rwa [hrest]⟩⟩
  . intro st u text rest hst hrest htext
    obtain ⟨st₂, hrun₂, hst₂, hrest₂⟩ := hread st hst
    refine ⟨st₂, hrun₂, ?_⟩
    rcases htext with rfl | ⟨rfl, hhead⟩
    . rw [hrest₂, hrest]
      simp
    . rw [hrest₂, hrest, List.nil_append, if_neg hhead]

theorem Recognises.item (hr : Recognises r g) (delim : UInt8)
    : Recognises (r >>= fun b => skip delim >>= fun _ => Pure.pure b) (g.item delim) := by
  exact hr.bind (fun b => (recognises_skip delim).bind (fun _ => Recognises.pure b))

theorem run_whileAvail_succ (fuel : Nat) (st : InputStream)
    : (whileAvail r (fuel + 1)).run st
        = if st.fail = true ∨ st.rest = [] then
            .ok ([], st)
          else
            (r >>= fun b => whileAvail r fuel >>= fun bs => Pure.pure (b :: bs)).run st := by
  change StateT.run (if st.fail = true ∨ st.rest = [] then _ else _) st = _
  split <;> rfl

theorem stop_iff (hst : st.Settled)
    : st.fail = true ∨ st.rest = [] ↔ st.rest = [] := by
  constructor
  . rintro (hfail | hnil)
    . by_contra hne
      rw [hst.eq_ofText hne] at hfail
      cases hfail
    . exact hnil
  . exact Or.inr

theorem whileAvail_sound (hr : Recognises r g) (hne : ∀ {b rest}, ¬ g b [] rest) {fuel : Nat}
    {bs : List β}
    (hst : st.Settled) (hfuel : st.rest.length ≤ fuel) (hrun : (whileAvail r fuel).run st = .ok (bs, st₂))
    : st₂.Settled ∧ st₂.rest = [] ∧ Grammar.many g bs st.rest [] := by
  induction fuel generalizing st bs with
  | zero =>
    cases hrun
    have hnil := List.length_eq_zero_iff.mp (Nat.le_zero.mp hfuel)
    exact ⟨hst, hnil, hnil⟩
  | succ fuel ih =>
    rw [run_whileAvail_succ] at hrun
    simp only [stop_iff hst] at hrun
    split at hrun
    next hnil =>
      cases hrun
      exact ⟨hst, hnil, hnil⟩
    next =>
      obtain ⟨b, st', hb, hrun'⟩ := run_bind_eq_ok hrun
      obtain ⟨bs', st₂', hbs, hpure⟩ := run_bind_eq_ok hrun'
      cases hpure
      obtain ⟨hst', text, hrest, hg⟩ := hr.sound hst hb
      have hshorter : st'.rest.length ≤ fuel := by
        have htext : text ≠ [] := by
          rintro rfl
          exact hne hg
        have hpos := List.length_pos_iff.mpr htext
        rw [hrest, List.length_append] at hfuel
        omega
      obtain ⟨hst₂, hnil, hmany⟩ := ih hst' hshorter hbs
      refine ⟨hst₂, hnil, text, st'.rest, hrest, ?_, hmany⟩
      rwa [List.append_nil]

theorem whileAvail_complete (hr : Recognises r g) (hne : ∀ {b rest}, ¬ g b [] rest) {fuel : Nat}
    {bs : List β}
    (hst : st.Settled) (hfuel : st.rest.length ≤ fuel) (hmany : Grammar.many g bs st.rest [])
    : ∃ st₂, (whileAvail r fuel).run st = .ok (bs, st₂) ∧ st₂.rest = [] := by
  induction bs generalizing fuel st with
  | nil =>
    have hnil : st.rest = [] := hmany
    cases fuel with
    | zero => exact ⟨st, rfl, hnil⟩
    | succ fuel =>
      refine ⟨st, ?_, hnil⟩
      rw [run_whileAvail_succ, if_pos (Or.inr hnil)]
  | cons b bs ih =>
    obtain ⟨text₁, text₂, hrest, hg, hmany⟩ := hmany
    rw [List.append_nil] at hg
    have htext : text₁ ≠ [] := by
      rintro rfl
      exact hne hg
    have hlength : st.rest.length = text₁.length + text₂.length := by
      rw [hrest, List.length_append]
    have hpos := List.length_pos_iff.mpr htext
    cases fuel with
    | zero => omega
    | succ fuel =>
      obtain ⟨st', hb, hrest'⟩ := hr.complete hst hrest hg
      obtain ⟨hst', -⟩ := hr.sound hst hb
      have hle : st'.rest.length ≤ fuel := by
        rw [hrest']
        omega
      obtain ⟨st₂, hbs, hnil⟩ := ih hst' hle (by rwa [hrest'])
      refine ⟨st₂, ?_, hnil⟩
      rw [run_whileAvail_succ, if_neg, run_bind_of_ok hb, run_bind_of_ok hbs]
      . rfl
      . rw [stop_iff hst]
        intro hnil'
        rw [hnil'] at hlength
        simp only [List.length_nil] at hlength
        omega

theorem recognises_whileAvail (hr : Recognises r g) (hne : ∀ {b rest}, ¬ g b [] rest)
    : Recognises (get >>= fun ss => whileAvail r ss.rest.length) g.many.toEnd := by
  constructor
  . intro st bs st₂ hst hrun
    obtain ⟨hst₂, hnil, hmany⟩ := whileAvail_sound hr hne hst (Nat.le_refl _) hrun
    refine ⟨hst₂, st.rest, ?_, ?_, hnil⟩
    . rw [hnil, List.append_nil]
    . rwa [hnil]
  . rintro st bs text rest hst hrest ⟨hmany, rfl⟩
    rw [List.append_nil] at hrest
    exact whileAvail_complete hr hne hst (Nat.le_refl _) (by rwa [hrest])

theorem recognises_word
    : Recognises (modifyGet (word []) : Scan ε (List UInt8)) wordText := by
  constructor
  . intro st w st' hst hrun
    have heq : word [] st = (w, st') := Except.ok.inj hrun
    rcases hst.eq_ofText_or with hof | ⟨hnil, heof⟩
    . generalize st.rest = text at hof ⊢
      subst hof
      have hsplit : text.takeWhile isSpace ++ text.dropWhile isSpace = text :=
        List.takeWhile_append_dropWhile
      have hblanks : ∀ c ∈ text.takeWhile isSpace, isSpace c = true :=
        List.all_eq_true.mp List.all_takeWhile
      simp only [word, skipws_ofText] at heq
      cases hcs : text.dropWhile isSpace with
      | nil =>
        rw [hcs] at heq hsplit
        cases heq
        refine ⟨Or.inr ⟨rfl, rfl⟩, text, by simp, text, by simp, ?_, by simp, Or.inl rfl⟩
        rwa [← hsplit, List.append_nil]
      | cons c cs =>
        have hhead : c ∈ (text.dropWhile isSpace).head? := by
          rw [hcs]
          rfl
        have hc : isSpace c = false := not_of_mem_head?_dropWhile hhead
        rw [hcs] at heq hsplit
        cases heq
        refine ⟨Settled.behind _, text.takeWhile isSpace ++ (c :: cs).takeWhile (fun c => !isSpace c), ?_,
          text.takeWhile isSpace, rfl, hblanks, ?_, Or.inr ⟨?_, ?_⟩⟩
        . rw [List.append_assoc, List.takeWhile_append_dropWhile, hsplit]
        . intro c' hc'
          have hall := List.all_eq_true.mp List.all_takeWhile c' hc'
          simpa using hall
        . simp [hc]
        . intro c' hc'
          have hstop := not_of_mem_head?_dropWhile hc'
          simpa using hstop
    . have hword : word [] st = ([], { st with fail := true }) := by
        simp [word, skipws, good, heof]
      rw [hword] at heq
      cases heq
      refine ⟨Or.inr ⟨hnil, heof⟩, [], by simp, [], by simp, by simp, by simp, Or.inl hnil⟩
  . rintro st w text rest hst hrest ⟨blanks, rfl, hblanks, hw, hstop⟩
    have hdone : ∀ c ∈ (w ++ rest).head?, isSpace c = false := by
      intro c hc
      cases w with
      | nil =>
        rcases hstop with rfl | ⟨hne, -⟩
        . cases hc
        . exact absurd rfl hne
      | cons c' cs =>
        cases hc
        exact hw _ List.mem_cons_self
    have hskip : (blanks ++ w ++ rest).dropWhile isSpace = w ++ rest := by
      rw [List.append_assoc]
      exact dropWhile_append_stop hblanks hdone
    have hstop' : ∀ c ∈ rest.head?, (!isSpace c) = false := by
      intro c hc
      rcases hstop with rfl | ⟨-, hspace⟩
      . cases hc
      . rw [hspace c hc]
        rfl
    have hw' : ∀ c ∈ w, (!isSpace c) = true := by
      intro c hc
      rw [hw c hc]
      rfl
    have hword : (word [] st).1 = w ∧ (word [] st).2.rest = rest := by
      rcases hst.eq_ofText_or with hof | ⟨hnil, heof⟩
      . rw [hof, hrest]
        simp only [word, skipws_ofText, hskip]
        by_cases hnil : w ++ rest = []
        . obtain ⟨rfl, rfl⟩ := List.append_eq_nil_iff.mp hnil
          exact ⟨rfl, rfl⟩
        . rw [if_pos (by simp [good, hnil]), takeWhile_append_stop hw' hstop',
            dropWhile_append_stop hw' hstop']
          exact ⟨rfl, rfl⟩
      . rw [hnil] at hrest
        obtain ⟨hfront, rfl⟩ := List.append_eq_nil_iff.mp hrest.symm
        obtain ⟨-, rfl⟩ := List.append_eq_nil_iff.mp hfront
        have hword : word [] st = ([], { st with fail := true }) := by
          simp [word, skipws, good, heof]
        rw [hword]
        exact ⟨rfl, hnil⟩
    refine ⟨(word [] st).2, ?_, hword.2⟩
    exact congrArg Except.ok (Prod.ext hword.1 rfl)

theorem Recognises.deterministic (hr : Recognises r g)
    : g.Deterministic := by
  intro b b' text text' rest rest' heq hb hb'
  obtain ⟨st, hrun, hrest⟩ := hr.complete (Settled.ofText (text ++ rest)) rfl hb
  obtain ⟨st', hrun', hrest'⟩ := hr.complete (Settled.ofText (text ++ rest)) heq hb'
  rw [hrun] at hrun'
  cases hrun'
  exact ⟨rfl, hrest.symm.trans hrest'⟩

theorem Recognises.scan_eq_ok_iff (hr : Recognises r g) {text : List UInt8}
    : scan r text = .ok b ↔ ∃ taken rest, text = taken ++ rest ∧ g b taken rest := by
  unfold scan StateT.run'
  constructor
  . intro hscan
    cases hrun : r.run (ofText text) with
    | error e =>
      rw [show r (ofText text) = _ from hrun] at hscan
      cases hscan
    | ok x =>
      rw [show r (ofText text) = _ from hrun] at hscan
      cases hscan
      obtain ⟨-, taken, hrest, hg⟩ := hr.sound (Settled.ofText text) hrun
      exact ⟨taken, x.2.rest, hrest, hg⟩
  . rintro ⟨taken, rest, hrest, hg⟩
    obtain ⟨st', hrun, -⟩ := hr.complete (Settled.ofText text) hrest hg
    rw [show r (ofText text) = _ from hrun]
    rfl

end

end Scan
end Emane
