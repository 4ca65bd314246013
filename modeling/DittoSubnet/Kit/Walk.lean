import Mathlib

/-!
# King-of-the-hill walks and bounded bubble passes

`walk beats champ es` hands the crown along the list `es`: each `e` that beats the running holder takes it. The beaten
relation need not be transitive. What the walk guarantees is then exactly this:

* the holder is the opener or a challenger that won (`walk_mem`), and it is reached by a chain of wins (`walk_chain`);
* no challenger after the last change beats the holder, so the opener keeps the crown iff nobody beats it
  (`walk_eq_self_iff`), and a later walk from the same holder stays there iff nobody walked up to the last change
  beats it (`walk_split`);
* where one beats another by clearing a bar that rises with the other's score, nobody walked beats the last holder
  (`score_le_bar_walk`).

`bubbleLoop` is bubble sort by an arbitrary pairwise test, stopped after a fixed number of passes. `averageRuns` cuts a
list into runs tied to their first element and replaces every share by the average of its run. All three transport
relations between lists (`rel_walk`, `rel_bubbleLoop`, `rel_averageRuns`).
-/

namespace Kit

variable {α β : Type}

/-- The crown after the challengers `es`, opened by `champ`. -/
def walk (beats : α → α → Bool) (champ : α) (es : List α) : α :=
  es.foldl (fun champ e => if beats e champ then e else champ) champ

section Walk

variable {beats : α → α → Bool}

@[simp] theorem walk_nil (champ : α) : walk beats champ [] = champ := rfl

@[simp] theorem walk_cons (champ e : α) (es : List α) :
    walk beats champ (e :: es) = walk beats (if beats e champ then e else champ) es := rfl

theorem walk_append (champ : α) (es fs : List α) :
    walk beats champ (es ++ fs) = walk beats (walk beats champ es) fs := List.foldl_append

theorem walk_mem : ∀ (champ : α) (es : List α), walk beats champ es = champ ∨ walk beats champ es ∈ es
  | _, [] => .inl rfl
  | champ, e :: es => by
    rw [walk_cons]
    rcases walk_mem (if beats e champ then e else champ) es with h | h
    · rw [h]
      split
      · exact .inr List.mem_cons_self
      · exact .inl rfl
    · exact .inr (List.mem_cons_of_mem _ h)

/-- The holder is reached from the opener by wins of challengers. -/
theorem walk_chain : ∀ (champ : α) (es : List α),
    Relation.ReflTransGen (fun a b => b ∈ es ∧ beats b a = true) champ (walk beats champ es)
  | champ, [] => .refl
  | champ, e :: es => by
    have ih : ∀ c, Relation.ReflTransGen (fun a b => b ∈ e :: es ∧ beats b a = true) c (walk beats c es) := fun c =>
      (walk_chain c es).lift id fun _ _ h => ⟨List.mem_cons_of_mem _ h.1, h.2⟩
    rw [walk_cons]
    split
    · rename_i h
      exact .head ⟨List.mem_cons_self, h⟩ (ih e)
    · exact ih champ

/-- Nobody dethrones a holder that nobody beats. -/
theorem walk_eq_self_of : ∀ {champ : α} {es : List α}, (∀ e ∈ es, beats e champ = false) → walk beats champ es = champ
  | _, [], _ => rfl
  | champ, e :: es, h => by
    rw [walk_cons, h e List.mem_cons_self]
    exact walk_eq_self_of fun e he => h e (List.mem_cons_of_mem _ he)

/-- The opener keeps the crown over challengers other than itself iff nobody beats it. -/
theorem walk_eq_self_iff : ∀ {champ : α} {es : List α}, champ ∉ es →
    (walk beats champ es = champ ↔ ∀ e ∈ es, beats e champ = false)
  | _, [], _ => by simp
  | champ, e :: es, hc => by
    refine ⟨fun h => ?_, walk_eq_self_of⟩
    simp only [List.mem_cons, not_or] at hc
    cases hb : beats e champ with
    | false =>
      rw [walk_cons, hb] at h
      intro f hf
      rcases List.mem_cons.1 hf with rfl | hf
      · exact hb
      · exact (walk_eq_self_iff hc.2).1 h f hf
    | true =>
      -- once dethroned, `champ` never returns: it is no challenger
      rw [walk_cons, hb, if_pos rfl] at h
      rcases @walk_mem α beats e es with h' | h'
      · exact absurd (h.symm.trans h') hc.1
      · exact absurd (h ▸ h') hc.2

/-- Either the opener kept the crown against everybody, or the holder took it at some challenger and nobody walked
afterwards beats it. -/
theorem walk_split : ∀ (champ : α) (es : List α),
    (walk beats champ es = champ ∧ ∀ e ∈ es, beats e champ = false) ∨
      ∃ xs ys, es = xs ++ walk beats champ es :: ys ∧ ∀ e ∈ ys, beats e (walk beats champ es) = false
  | _, [] => .inl ⟨rfl, fun _ h => by cases h⟩
  | champ, e :: es => by
    rw [walk_cons]
    cases hb : beats e champ with
    | false =>
      rcases walk_split champ es with ⟨h, hall⟩ | ⟨xs, ys, hes, hall⟩
      · refine .inl ⟨h, fun f hf => ?_⟩
        rcases List.mem_cons.1 hf with rfl | hf
        · exact hb
        · exact hall f hf
      · refine .inr ⟨e :: xs, ys, ?_, hall⟩
        rw [if_neg (by simp)]
        exact congrArg (e :: ·) hes
    | true =>
      rw [if_pos rfl]
      rcases walk_split e es with ⟨h, hall⟩ | ⟨xs, ys, hes, hall⟩
      · exact .inr ⟨[], es, by rw [h]; rfl, by rwa [h]⟩
      · exact .inr ⟨e :: xs, ys, congrArg (e :: ·) hes, hall⟩

theorem rel_walk {R : α → β → Prop} {beats' : β → β → Bool}
    (hb : ∀ a b a' b', R a a' → R b b' → beats a b = beats' a' b') :
    ∀ {es : List α} {fs : List β}, List.Forall₂ R es fs → ∀ {c : α} {d : β}, R c d →
      R (walk beats c es) (walk beats' d fs)
  | _, _, .nil, _, _, h => h
  | _, _, .cons (a := e) (b := f) hef h, c, d, hcd => by
    rw [walk_cons, walk_cons, hb e c f d hef hcd]
    split
    · exact rel_walk hb h hef
    · exact rel_walk hb h hcd

end Walk

/-! ## Walks over a rising bar -/

section Bar

variable {S : Type} [LinearOrder S] {beats : α → α → Bool} {score : α → S} {bar : S → S}

/-- On `l` one beats another exactly by clearing the bar at the other's score. -/
def BeatsOverBar (beats : α → α → Bool) (score : α → S) (bar : S → S) (l : List α) : Prop :=
  ∀ a ∈ l, ∀ b ∈ l, (beats a b = true ↔ bar (score b) < score a)

theorem BeatsOverBar.subset {l m : List α} (h : BeatsOverBar beats score bar l) (hm : m ⊆ l) :
    BeatsOverBar beats score bar m := fun a ha b hb => h a (hm ha) b (hm hb)

theorem BeatsOverBar.eq_false {l : List α} (h : BeatsOverBar beats score bar l) {a b : α} (ha : a ∈ l) (hb : b ∈ l)
    (hab : score a ≤ bar (score b)) : beats a b = false := by
  rw [Bool.eq_false_iff, ne_eq, h a ha b hb]
  exact hab.not_gt

theorem walk_mem_cons (champ : α) (es : List α) : walk beats champ es ∈ champ :: es := by
  rcases @walk_mem α beats champ es with h | h
  · rw [h]
    exact List.mem_cons_self
  · exact List.mem_cons_of_mem _ h

/-- The score of the holder never falls. -/
theorem score_le_walk (hle : ∀ s, s ≤ bar s) {champ : α} {es : List α}
    (hb : BeatsOverBar beats score bar (champ :: es)) : score champ ≤ score (walk beats champ es) := by
  induction es generalizing champ with
  | nil => exact le_refl _
  | cons e es ih =>
    rw [walk_cons]
    split
    · rename_i h
      have hstep : score champ ≤ score e := (hle _).trans ((hb e (by simp) champ (by simp)).1 h).le
      exact hstep.trans (ih (hb.subset (by simp)))
    · exact ih (hb.subset (by simp))

/-- Neither the opener nor a challenger clears the bar of the last holder: what failed against an earlier, lower bar
fails against a later one. -/
theorem score_le_bar_walk (hmono : Monotone bar) (hle : ∀ s, s ≤ bar s) {champ : α} {es : List α}
    (hb : BeatsOverBar beats score bar (champ :: es)) :
      ∀ e ∈ champ :: es, score e ≤ bar (score (walk beats champ es)) := by
  induction es generalizing champ with
  | nil => simpa using hle (score champ)
  | cons f es ih =>
    rw [walk_cons]
    cases hf : beats f champ with
    | true =>
      rw [if_pos rfl]
      have hsub : BeatsOverBar beats score bar (f :: es) := hb.subset (by simp)
      have hstep : score champ ≤ score f := (hle _).trans ((hb f (by simp) champ (by simp)).1 hf).le
      intro e he
      rcases List.mem_cons.1 he with rfl | he
      · exact hstep.trans (ih hsub f List.mem_cons_self)
      · exact ih hsub e he
    | false =>
      rw [if_neg (by simp)]
      have hsub : BeatsOverBar beats score bar (champ :: es) := hb.subset (by simp)
      have hfail : score f ≤ bar (score champ) := by
        have := hb f (by simp) champ (by simp)
        rw [hf] at this
        simpa using this
      intro e he
      rcases List.mem_cons.1 he with rfl | he
      · exact ih hsub e List.mem_cons_self
      rcases List.mem_cons.1 he with rfl | he
      · exact hfail.trans (hmono (score_le_walk hle hsub))
      · exact ih hsub e (List.mem_cons_of_mem _ he)

/-- Each step of the walk keeps the holder or raises its score over the bar. -/
theorem walk_take_succ {champ : α} {es : List α} (hb : BeatsOverBar beats score bar (champ :: es)) (k : ℕ) :
    walk beats champ (es.take (k + 1)) = walk beats champ (es.take k) ∨
      bar (score (walk beats champ (es.take k))) < score (walk beats champ (es.take (k + 1))) := by
  cases hk : es[k]? with
  | none =>
    rw [List.getElem?_eq_none_iff] at hk
    rw [List.take_of_length_le hk, List.take_of_length_le (hk.trans (Nat.le_succ k))]
    exact .inl rfl
  | some e =>
    rw [List.take_add_one, hk, walk_append]
    have hmem : walk beats champ (es.take k) ∈ champ :: es :=
      List.cons_subset_cons _ (List.take_subset k es) (walk_mem_cons champ (es.take k))
    cases hbe : beats e (walk beats champ (es.take k)) with
    | false => exact .inl (by simp [hbe])
    | true =>
      refine .inr ?_
      have he : e ∈ champ :: es := List.mem_cons_of_mem _ (List.mem_of_getElem? hk)
      simpa [hbe] using (hb e he _ hmem).1 hbe

/-- A challenger that does not clear the bar where it stands changes nothing. -/
theorem walk_insert {champ x : α} {xs ys : List α} (hx : beats x (walk beats champ xs) = false) :
    walk beats champ (xs ++ x :: ys) = walk beats champ (xs ++ ys) := by
  rw [walk_append, walk_cons, hx, walk_append]
  simp

end Bar

/-! ## Searches and runs of related lists -/

theorem rel_find? {R : α → β → Prop} {p : α → Bool} {q : β → Bool} (hpq : ∀ a b, R a b → p a = q b) :
    ∀ {l : List α} {m : List β}, List.Forall₂ R l m → Option.Rel R (l.find? p) (m.find? q)
  | _, _, .nil => .none
  | _, _, .cons (a := a) (b := b) hab h => by
    rw [List.find?_cons, List.find?_cons, hpq a b hab]
    split
    · exact .some hab
    · exact rel_find? hpq h

/-- A search for something that occurs once does not depend on the order. -/
theorem find?_perm {p : α → Bool} {l m : List α} (huniq : ∀ a ∈ l, ∀ b ∈ l, p a = true → p b = true → a = b)
    (h : l.Perm m) : l.find? p = m.find? p := by
  cases hl : l.find? p with
  | none =>
    rw [List.find?_eq_none] at hl
    rw [eq_comm, List.find?_eq_none]
    exact fun a ha => hl a (h.mem_iff.2 ha)
  | some a =>
    have hpa := List.find?_some hl
    have hal := List.mem_of_find?_eq_some hl
    cases hm : m.find? p with
    | none =>
      rw [List.find?_eq_none] at hm
      exact absurd hpa (hm a (h.mem_iff.1 hal))
    | some b =>
      rw [huniq a hal b (h.mem_iff.2 (List.mem_of_find?_eq_some hm)) hpa (List.find?_some hm)]

/-- Two searches find the same element exactly when they agree on the first element that either accepts. -/
theorem find?_eq_find?_iff {p q : α → Bool} {l : List α} :
    l.find? p = l.find? q ↔ ∀ a ∈ l.find? (fun a => p a || q a), p a = q a := by
  induction l with
  | nil => simp
  | cons a l ih =>
    cases hp : p a with
    | true =>
      cases hq : q a with
      | true => simp [hp, hq]
      | false =>
        simp only [List.find?_cons, hp, hq, Bool.true_or, Option.mem_def, Option.some.injEq, forall_eq']
        refine iff_of_false (fun h => ?_) (by decide)
        have hqa := List.find?_some h.symm
        rw [hq] at hqa
        cases hqa
    | false =>
      cases hq : q a with
      | true =>
        simp only [List.find?_cons, hp, hq, Bool.or_true, Option.mem_def, Option.some.injEq, forall_eq']
        refine iff_of_false (fun h => ?_) (by decide)
        have hpa := List.find?_some h
        rw [hp] at hpa
        cases hpa
      | false =>
        simp only [List.find?_cons, hp, hq, Bool.or_self]
        exact ih

/-- Two searches find the same element exactly when they agree on every element that the first search reaches. -/
theorem find?_eq_iff_reached [DecidableEq α] {p q : α → Bool} {l : List α} :
    l.find? p = l.find? q ↔ ∀ a ∈ l, (∀ b ∈ l.takeWhile (· ≠ a), p b = false) → p a = q a := by
  induction l with
  | nil => simp
  | cons x l ih =>
    have hrest : ∀ a ≠ x, (x :: l).takeWhile (· ≠ a) = x :: l.takeWhile (· ≠ a) := by
      intro a ha
      simp [ha.symm]
    cases hp : p x with
    | true =>
      rw [List.find?_cons_of_pos hp]
      constructor
      · intro h a ha hreached
        by_cases hax : a = x
        · rw [hax, hp, List.find?_some h.symm]
        · rw [hrest a hax] at hreached
          have hpx := hreached x List.mem_cons_self
          rw [hp] at hpx
          cases hpx
      · intro h
        have hq := h x List.mem_cons_self (by simp)
        rw [List.find?_cons_of_pos (hq ▸ hp)]
    | false =>
      rw [List.find?_cons_of_neg (by simp [hp])]
      constructor
      · intro h a ha hreached
        have hq : q x = false := by
          by_contra hqx
          rw [Bool.not_eq_false] at hqx
          rw [List.find?_cons_of_pos hqx] at h
          have hpx := List.find?_some h
          rw [hp] at hpx
          cases hpx
        rw [List.find?_cons_of_neg (by simp [hq])] at h
        by_cases hax : a = x
        · rw [hax, hp, hq]
        · rw [hrest a hax] at hreached
          exact ih.1 h a (List.mem_of_ne_of_mem hax ha) fun b hb => hreached b (List.mem_cons_of_mem _ hb)
      · intro h
        have hq := h x List.mem_cons_self (by simp)
        rw [List.find?_cons_of_neg (by simp [← hq, hp])]
        refine ih.2 fun a ha hreached => ?_
        by_cases hax : a = x
        · rw [hax]
          exact hq
        · refine h a (List.mem_cons_of_mem _ ha) ?_
          rw [hrest a hax]
          intro b hb
          rcases List.mem_cons.1 hb with rfl | hb
          · exact hp
          · exact hreached b hb

theorem find?_filter_of_imp {p q : α → Bool} (h : ∀ a, q a = true → p a = true) {l : List α} :
    (l.filter p).find? q = l.find? q := by
  rw [List.find?_filter]
  refine congrArg (fun r => l.find? r) (funext fun a => ?_)
  cases hq : q a with
  | true => simp [h a hq]
  | false => simp

theorem rel_filter {R : α → β → Prop} {p : α → Bool} {q : β → Bool} (hpq : ∀ a b, R a b → p a = q b)
    {l : List α} {m : List β} (h : List.Forall₂ R l m) : List.Forall₂ R (l.filter p) (m.filter q) := by
  refine List.rel_filter (fun a b hab => ?_) h
  simp only [hpq a b hab]

theorem rel_takeWhile {R : α → β → Prop} {p : α → Bool} {q : β → Bool} (hpq : ∀ a b, R a b → p a = q b) :
    ∀ {l : List α} {m : List β}, List.Forall₂ R l m → List.Forall₂ R (l.takeWhile p) (m.takeWhile q)
  | _, _, .nil => .nil
  | _, _, .cons (a := a) (b := b) hab h => by
    rw [List.takeWhile_cons, List.takeWhile_cons, hpq a b hab]
    split
    · exact .cons hab (rel_takeWhile hpq h)
    · exact .nil

theorem rel_zip {γ : Type} {R : α → β → Prop} : ∀ {l : List α} {m : List β}, List.Forall₂ R l m → ∀ cs : List γ,
    List.Forall₂ (fun x y => R x.1 y.1 ∧ x.2 = y.2) (l.zip cs) (m.zip cs)
  | _, _, .nil, _ => .nil
  | _, _, .cons _ _, [] => .nil
  | _, _, .cons hab h, _ :: cs => .cons ⟨hab, rfl⟩ (rel_zip h cs)

/-! ## Bubble passes -/

/-- One pass: `upper` sinks past each next element that must precede it. Also whether anything moved. -/
def bubblePass (swap : α → α → Bool) : α → List α → List α × Bool
  | upper, [] => ([upper], false)
  | upper, lower :: rest =>
    if swap lower upper then (lower :: (bubblePass swap upper rest).1, true)
    else (upper :: (bubblePass swap lower rest).1, (bubblePass swap lower rest).2)

/-- At most `n` passes, stopping after one that moves nothing. -/
def bubbleLoop (swap : α → α → Bool) : ℕ → List α → List α
  | 0, l => l
  | _ + 1, [] => []
  | n + 1, a :: l =>
    if (bubblePass swap a l).2 then bubbleLoop swap n (bubblePass swap a l).1 else (bubblePass swap a l).1

section Bubble

variable {swap : α → α → Bool}

theorem bubblePass_perm : ∀ (a : α) (l : List α), (bubblePass swap a l).1.Perm (a :: l)
  | _, [] => .refl _
  | a, b :: l => by
    unfold bubblePass
    split
    · exact ((bubblePass_perm a l).cons b).trans (List.Perm.swap a b l)
    · exact (bubblePass_perm b l).cons a

theorem bubbleLoop_perm : ∀ (n : ℕ) (l : List α), (bubbleLoop swap n l).Perm l
  | 0, _ => .refl _
  | _ + 1, [] => .refl _
  | n + 1, a :: l => by
    unfold bubbleLoop
    split
    · exact (bubbleLoop_perm n _).trans (bubblePass_perm a l)
    · exact bubblePass_perm a l

theorem rel_bubblePass {R : α → β → Prop} {swap' : β → β → Bool}
    (hs : ∀ a b a' b', R a a' → R b b' → swap a b = swap' a' b') :
    ∀ {l : List α} {m : List β}, List.Forall₂ R l m → ∀ {a : α} {b : β}, R a b →
      List.Forall₂ R (bubblePass swap a l).1 (bubblePass swap' b m).1 ∧
        (bubblePass swap a l).2 = (bubblePass swap' b m).2
  | _, _, .nil, _, _, hab => ⟨.cons hab .nil, rfl⟩
  | _, _, .cons (a := x) (b := y) hxy h, a, b, hab => by
    simp only [bubblePass, hs x a y b hxy hab]
    split
    · exact ⟨.cons hxy (rel_bubblePass hs h hab).1, rfl⟩
    · exact ⟨.cons hab (rel_bubblePass hs h hxy).1, (rel_bubblePass hs h hxy).2⟩

theorem rel_bubbleLoop {R : α → β → Prop} {swap' : β → β → Bool}
    (hs : ∀ a b a' b', R a a' → R b b' → swap a b = swap' a' b') :
    ∀ (n : ℕ) {l : List α} {m : List β}, List.Forall₂ R l m →
      List.Forall₂ R (bubbleLoop swap n l) (bubbleLoop swap' n m)
  | 0, _, _, h => h
  | _ + 1, _, _, .nil => .nil
  | n + 1, _, _, .cons hab h => by
    obtain ⟨h₁, h₂⟩ := rel_bubblePass hs h hab
    simp only [bubbleLoop, h₂]
    split
    · exact rel_bubbleLoop hs n h₁
    · exact h₁

end Bubble

/-! ## Averaging over runs -/

section Runs

variable {K : Type} [Field K]

/-- A run's shares, averaged when the run has more than one member. -/
def averageRun (run : List K) : List K :=
  if run.length > 1 then List.replicate run.length (run.sum / run.length) else run

/-- The rest of the averaging, inside the run `run` that `anchor` opened. -/
def averageRunsFrom (tied : α → α → Bool) (anchor : α) : List K → List (α × K) → List K
  | run, [] => averageRun run
  | run, (e, s) :: rest =>
    if tied e anchor then averageRunsFrom tied anchor (run ++ [s]) rest
    else averageRun run ++ averageRunsFrom tied e [s] rest

/-- Every share replaced by the average over its run: the elements tied to the run's first element. -/
def averageRuns (tied : α → α → Bool) : List (α × K) → List K
  | [] => []
  | (anchor, s) :: rest => averageRunsFrom tied anchor [s] rest

theorem length_averageRun (run : List K) : (averageRun run).length = run.length := by
  unfold averageRun
  split
  · exact List.length_replicate
  · rfl

theorem length_averageRunsFrom (tied : α → α → Bool) : ∀ (l : List (α × K)) (anchor : α) (run : List K),
    (averageRunsFrom tied anchor run l).length = run.length + l.length
  | [], _, run => length_averageRun run
  | (e, s) :: rest, anchor, run => by
    unfold averageRunsFrom
    split
    · rw [length_averageRunsFrom tied rest, List.length_append, List.length_cons, List.length_cons, List.length_nil]
      omega
    · rw [List.length_append, length_averageRun, length_averageRunsFrom tied rest, List.length_cons, List.length_cons,
        List.length_nil]
      omega

theorem length_averageRuns (tied : α → α → Bool) (l : List (α × K)) : (averageRuns tied l).length = l.length := by
  cases l with
  | nil => rfl
  | cons x rest =>
    rw [averageRuns, length_averageRunsFrom, List.length_cons, List.length_cons, List.length_nil]
    omega

theorem rel_averageRunsFrom {R : α → β → Prop} {tied : α → α → Bool} {tied' : β → β → Bool}
    (ht : ∀ a b a' b', R a a' → R b b' → tied a b = tied' a' b') :
    ∀ {l : List (α × K)} {m : List (β × K)}, List.Forall₂ (fun x y => R x.1 y.1 ∧ x.2 = y.2) l m →
      ∀ {a : α} {b : β}, R a b → ∀ run, averageRunsFrom tied a run l = averageRunsFrom tied' b run m
  | _, _, .nil, _, _, _, _ => rfl
  | _, _, .cons (a := (x, s)) (b := (y, t)) hxy h, a, b, hab, run => by
    obtain ⟨hR, rfl⟩ : R x y ∧ s = t := hxy
    simp only [averageRunsFrom, ht x a y b hR hab]
    split
    · exact rel_averageRunsFrom ht h hab _
    · rw [rel_averageRunsFrom ht h hR]

theorem rel_averageRuns {R : α → β → Prop} {tied : α → α → Bool} {tied' : β → β → Bool}
    (ht : ∀ a b a' b', R a a' → R b b' → tied a b = tied' a' b') {l : List (α × K)} {m : List (β × K)}
    (h : List.Forall₂ (fun x y => R x.1 y.1 ∧ x.2 = y.2) l m) : averageRuns tied l = averageRuns tied' m := by
  cases h with
  | nil => rfl
  | cons hxy h =>
    obtain ⟨hR, hs⟩ := hxy
    simp only [averageRuns, hs]
    exact rel_averageRunsFrom ht h hR _

end Runs

end Kit
