import Emane.Lib.Outcome

/-!
This module contains readers of a list of tokens.
-/

namespace Emane

abbrev Reader (β : Type) (ε : Type) := StateT (List β) (Except ε)

namespace Reader

variable {α γ β ε : Type}

def next (e : ε) : Reader β ε β := do
  match ← get with
  | [] => throw e
  | b :: bs =>
    set bs
    return b

def fold (f : α → β → α) (e : ε) : Nat → α → Reader β ε α
  | 0, a => return a
  | n + 1, a => do
    let b ← next e
    fold f e n (f a b)

def take (e : ε) : (n : Nat) → Reader β ε {bs : List β // bs.length = n}
  | 0 => return ⟨[], rfl⟩
  | n + 1 => do
    let b ← next e
    let bs ← take e n
    return ⟨b :: bs.val, congrArg Nat.succ bs.property⟩

def rest : Reader β ε (List β) := do
  let bs ← get
  set ([] : List β)
  return bs

def many (r : Reader β ε α) : Nat → Reader β ε (List α)
  | 0 => return []
  | fuel + 1 => do
    if (← get).isEmpty then
      return []
    else
      let a ← r
      let as ← many r fuel
      return a :: as

def Reads (r : Reader β ε α) (bs : List β) (a : α) : Prop :=
  ∀ rest, r.run (bs ++ rest) = .ok (a, rest)

def ReadsAll (r : Reader β ε α) (bs : List β) (a : α) : Prop :=
  r.run bs = .ok (a, [])

def Yields (r : Reader β ε α) (post : α → Prop) (fail : ε → Prop) : Prop :=
  ∀ bs, Ensures (r.run bs) (fun x => post x.1) fail

section

variable {r : Reader β ε α} {f : α → Reader β ε γ} {bs bs' : List β} {a : α} {c : γ}

theorem Reads.pure (a : α) : Reads (Pure.pure a : Reader β ε α) [] a := by
  intro rest
  rfl

theorem Reads.run_bind (h : Reads r bs a) (f : α → Reader β ε γ) (rest : List β)
    : (r >>= f).run (bs ++ rest) = (f a).run rest := by
  rw [StateT.run_bind, h]
  rfl

theorem Reads.bind (h : Reads r bs a) (h' : Reads (f a) bs' c) : Reads (r >>= f) (bs ++ bs') c := by
  intro rest
  rw [List.append_assoc, h.run_bind]
  exact h' rest

theorem Reads.bindAll (h : Reads r bs a) (h' : ReadsAll (f a) bs' c)
    : ReadsAll (r >>= f) (bs ++ bs') c := by
  unfold ReadsAll
  rw [h.run_bind]
  exact h'

theorem Reads.map (h : Reads r bs a) (g : α → γ) : Reads (r >>= fun a => Pure.pure (g a)) bs (g a) := by
  have hbind := h.bind (f := fun a => Pure.pure (g a)) (Reads.pure (g a))
  rwa [List.append_nil] at hbind

theorem Reads.all (h : Reads r bs a) : ReadsAll r bs a := by
  have hrest := h []
  rwa [List.append_nil] at hrest

theorem ReadsAll.map (h : ReadsAll r bs a) (g : α → γ)
    : ReadsAll (r >>= fun a => Pure.pure (g a)) bs (g a) := by
  unfold ReadsAll
  rw [StateT.run_bind, h]
  rfl

theorem reads_next (e : ε) (b : β) : Reads (next e) [b] b := by
  intro rest
  rfl

theorem reads_fold (g : α → β → α) (e : ε) (bs : List β) (a : α)
    : Reads (fold g e bs.length a) bs (bs.foldl g a) := by
  induction bs generalizing a with
  | nil => exact Reads.pure a
  | cons b bs ih => exact (reads_next e b).bind (ih (g a b))

theorem reads_take (e : ε) {n : Nat} (bs : {bs : List β // bs.length = n})
    : Reads (take e n) bs.val bs := by
  induction n with
  | zero =>
    obtain ⟨bs, hbs⟩ := bs
    have hnil := List.length_eq_zero_iff.mp hbs
    subst hnil
    exact Reads.pure _
  | succ n ih =>
    obtain ⟨bs, hbs⟩ := bs
    cases bs with
    | nil => simp at hbs
    | cons b bs =>
      have htail := (ih ⟨bs, Nat.succ.inj hbs⟩).map
        (fun bs => (⟨b :: bs.val, congrArg Nat.succ bs.property⟩ : {bs : List β // bs.length = n + 1}))
      exact (reads_next e b).bind htail

theorem readsAll_rest (bs : List β) : ReadsAll (rest : Reader β ε (List β)) bs bs := by
  rfl

theorem readsAll_many {enc : α → List β} {as : List α} (h : ∀ a ∈ as, Reads r (enc a) a)
    (hne : ∀ a ∈ as, enc a ≠ [])
    {fuel : Nat} (hfuel : as.length ≤ fuel)
    : ReadsAll (many r fuel) (as.flatMap enc) as := by
  induction as generalizing fuel with
  | nil =>
    cases fuel with
    | zero => rfl
    | succ fuel => rfl
  | cons a as ih =>
    cases fuel with
    | zero => simp at hfuel
    | succ fuel =>
      have hnonempty : ((a :: as).flatMap enc).isEmpty = false := by
        simp [hne a]
      have htail := ih (fun b hb => h b (by simp [hb])) (fun b hb => hne b (by simp [hb]))
        (Nat.le_of_succ_le_succ hfuel)
      have hread := (h a (by simp)).bindAll (f := fun a => many r fuel >>= fun as => Pure.pure (a :: as))
        (htail.map (fun as => a :: as))
      change StateT.run (if ((a :: as).flatMap enc).isEmpty then Pure.pure [] else _)
        ((a :: as).flatMap enc) = _
      rw [hnonempty]
      exact hread

end

section

variable {r : Reader β ε α} {f : α → Reader β ε γ} {post : α → Prop} {post' : γ → Prop} {fail : ε → Prop}

theorem Yields.pure {a : α} (h : post a) : Yields (Pure.pure a : Reader β ε α) post fail := by
  intro bs
  exact h

theorem Yields.throw {e : ε} (h : fail e) : Yields (throw e : Reader β ε α) post fail := by
  intro bs
  exact h

theorem Yields.get {post : List β → Prop} (h : ∀ bs, post bs)
    : Yields (MonadState.get : Reader β ε (List β)) post fail := by
  intro bs
  exact h bs

theorem Yields.bind (h : Yields r post fail) (hf : ∀ a, post a → Yields (f a) post' fail)
    : Yields (r >>= f) post' fail := by
  intro bs
  exact (h bs).bind (fun x hx => hf x.1 hx x.2)

theorem Yields.ite {c : Prop} [Decidable c] {r' : Reader β ε α} (h : Yields r post fail)
    (h' : Yields r' post fail)
    : Yields (if c then r else r') post fail := by
  split
  . exact h
  . exact h'

theorem Yields.map (h : Yields r post fail) (g : α → γ) (hg : ∀ a, post a → post' (g a))
    : Yields (r >>= fun a => Pure.pure (g a)) post' fail := by
  exact h.bind (fun a ha => Yields.pure (hg a ha))

theorem yields_next {e : ε} (he : fail e) : Yields (next e : Reader β ε β) (fun _ => True) fail := by
  intro bs
  cases bs with
  | nil => exact he
  | cons b bs => trivial

theorem yields_fold {g : α → β → α} {e : ε} (he : fail e) (n : Nat) (a : α)
    : Yields (fold g e n a) (fun _ => True) fail := by
  induction n generalizing a with
  | zero => exact Yields.pure trivial
  | succ n ih => exact (yields_next he).bind (fun b _ => ih (g a b))

theorem yields_take {e : ε} (he : fail e) (n : Nat)
    : Yields (take e n : Reader β ε _) (fun _ => True) fail := by
  induction n with
  | zero => exact Yields.pure trivial
  | succ n ih =>
    apply (yields_next he).bind
    intro b _
    exact ih.map _ (fun _ _ => trivial)

theorem yields_rest : Yields (rest : Reader β ε (List β)) (fun _ => True) fail := by
  intro bs
  trivial

theorem yields_many (h : Yields r post fail) (fuel : Nat)
    : Yields (many r fuel) (fun _ => True) fail := by
  induction fuel with
  | zero => exact Yields.pure trivial
  | succ fuel ih =>
    apply (Yields.get (fun _ => trivial)).bind
    intro bs _
    apply (Yields.pure trivial).ite
    apply h.bind
    intro a _
    exact ih.map _ (fun _ _ => trivial)

end

theorem run_fold_eq_ok {g : α → β → α} {e : ε} {n : Nat} {a c : α} {bs rest : List β}
    (h : (fold g e n a).run bs = .ok (c, rest))
    : ∃ bs', bs = bs' ++ rest ∧ bs'.length = n ∧ c = bs'.foldl g a := by
  induction n generalizing a bs with
  | zero =>
    cases h
    exact ⟨[], rfl, rfl, rfl⟩
  | succ n ih =>
    cases bs with
    | nil => cases h
    | cons b bs =>
      obtain ⟨bs', rfl, hlength, hc⟩ := ih (a := g a b) h
      exact ⟨b :: bs', rfl, congrArg Nat.succ hlength, hc⟩

end Reader
end Emane
