import DittoSubnet.Kit.Dict

/-!
# Memo tables

A walk asks one question `f` of each element and remembers the answers under a key of the element (`ask`, `answers`).
An element whose key was met before gets the answer of the first element with that key (`ask_of`), so the walk
answers every element as `f` does exactly when `f` agrees on the elements of the walk that share a key
(`answers_exact_iff`).
-/

namespace Kit.Memo

variable {α κ β : Type} [DecidableEq κ] (key : α → κ) (f : α → β)

/-- The stored answer for the key of an element, or the answer of the element itself, which is then stored. -/
def ask (memo : Dict κ β) (a : α) : β × Dict κ β :=
  match Dict.get? memo (key a) with
  | some b => (b, memo)
  | none => (f a, Dict.set memo (key a) (f a))

/-- The answers of a walk, each with its element. -/
def answers : Dict κ β → List α → List (α × β)
  | _, [] => []
  | memo, a :: l => (a, (ask key f memo a).1) :: answers (ask key f memo a).2 l

/-- The first element of a list with the key of `a`. -/
def first (l : List α) (a : α) : Option α := l.find? fun b => key b = key a

/-- A table that holds the answers of the elements seen. -/
def Holds (seen : List α) (memo : Dict κ β) : Prop := ∀ a, Dict.get? memo (key a) = (first key seen a).map f

variable {key f}

theorem holds_nil : Holds key f [] [] := fun _ => rfl

theorem first_append_of_mem {seen : List α} {a : α} (l : List α) (h : a ∈ seen) :
    first key (seen ++ l) a = first key seen a := by
  rw [first, List.find?_append, first, Option.or_eq_left_of_isSome]
  exact List.find?_isSome.2 ⟨a, h, decide_eq_true rfl⟩

theorem first_congr {l : List α} {a b : α} (h : key a = key b) : first key l a = first key l b := by
  rw [first, first, h]

/-- A question is answered as for the first element seen with its key, and the table keeps its meaning. -/
theorem ask_of {seen : List α} {memo : Dict κ β} (h : Holds key f seen memo) (a : α) :
    (first key (seen ++ [a]) a).map f = some (ask key f memo a).1 ∧
      Holds key f (seen ++ [a]) (ask key f memo a).2 := by
  have ha := h a
  cases hm : first key seen a with
  | some b =>
    have hget : Dict.get? memo (key a) = some (f b) := by rw [ha, hm]; rfl
    have hask : ask key f memo a = (f b, memo) := by rw [ask, hget]
    have hfirst : first key (seen ++ [a]) a = some b := by
      rw [first, List.find?_append, ← first, hm, Option.some_or]
    refine ⟨by rw [hfirst, hask]; rfl, ?_⟩
    rw [hask]
    intro c
    rw [h c, first, first, List.find?_append]
    cases hc : seen.find? fun b => key b = key c with
    | some d => rfl
    | none =>
      have hca : ¬ key a = key c := by
        intro e
        rw [first_congr e, first, hc] at hm
        cases hm
      simp [hca]
  | none =>
    have hget : Dict.get? memo (key a) = none := by rw [ha, hm]; rfl
    have hask : ask key f memo a = (f a, Dict.set memo (key a) (f a)) := by rw [ask, hget]
    have hfirst : first key (seen ++ [a]) a = some a := by
      rw [first, List.find?_append, ← first, hm, Option.none_or]
      simp
    refine ⟨by rw [hfirst, hask]; rfl, ?_⟩
    rw [hask]
    intro c
    rw [Dict.get?_set, first, List.find?_append, ← first]
    by_cases hca : key a = key c
    · rw [if_pos hca, ← first_congr hca, hm, Option.none_or]
      simp [hca]
    · rw [if_neg hca, h c]
      simp [hca]

/-- What a walk answers: the answer of the first element seen with the key. -/
theorem mem_answers : ∀ {l : List α} {seen : List α} {memo : Dict κ β}, Holds key f seen memo →
    ∀ {p : α × β}, p ∈ answers key f memo l → (first key (seen ++ l) p.1).map f = some p.2 := by
  intro l
  induction l with
  | nil => intro seen memo _ p hp; cases hp
  | cons a l ih =>
    intro seen memo h p hp
    obtain ⟨hanswer, hnext⟩ := ask_of h a
    rcases List.mem_cons.1 hp with rfl | hp
    · rw [List.append_cons, first_append_of_mem l (by simp)]
      exact hanswer
    · rw [List.append_cons]
      exact ih hnext hp

theorem exists_answer : ∀ {l : List α} (memo : Dict κ β) {a : α}, a ∈ l → ∃ b, (a, b) ∈ answers key f memo l := by
  intro l
  induction l with
  | nil => intro memo a ha; cases ha
  | cons c l ih =>
    intro memo a ha
    rcases List.mem_cons.1 ha with rfl | ha
    · exact ⟨_, List.mem_cons_self⟩
    · obtain ⟨b, hb⟩ := ih (ask key f memo c).2 ha
      exact ⟨b, List.mem_cons_of_mem _ hb⟩

theorem mem_of_mem_answers : ∀ {l : List α} {memo : Dict κ β} {p : α × β}, p ∈ answers key f memo l → p.1 ∈ l := by
  intro l
  induction l with
  | nil => intro memo p hp; cases hp
  | cons c l ih =>
    intro memo p hp
    rcases List.mem_cons.1 hp with rfl | hp
    · exact List.mem_cons_self
    · exact List.mem_cons_of_mem _ (ih hp)

/-- A walk answers each of its elements as `f` does exactly when `f` agrees on those that share a key. -/
theorem answers_exact_iff {l : List α} :
    (∀ p ∈ answers key f [] l, p.2 = f p.1) ↔ ∀ a ∈ l, ∀ b ∈ l, key a = key b → f a = f b := by
  constructor
  · intro h
    -- every element has the answer of the first one with its key
    have hfirst : ∀ a ∈ l, (first key l a).map f = some (f a) := by
      intro a ha
      obtain ⟨b, hb⟩ : ∃ b, (a, b) ∈ answers key f [] l := exists_answer [] ha
      have hanswer := mem_answers holds_nil hb
      rw [List.nil_append] at hanswer
      rw [hanswer, h _ hb]
    intro a ha b hb hab
    have hsame : some (f a) = some (f b) := by
      rw [← hfirst a ha, ← hfirst b hb, first_congr hab]
    exact Option.some.inj hsame
  · intro h p hp
    have hanswer := mem_answers holds_nil hp
    rw [List.nil_append] at hanswer
    obtain ⟨b, hb, hbp⟩ := Option.map_eq_some_iff.1 hanswer
    have hkey : key b = key p.1 := of_decide_eq_true (List.find?_some (p := fun c => decide (key c = key p.1)) hb)
    rw [← hbp]
    exact h b (List.mem_of_find?_eq_some hb) p.1 (mem_of_mem_answers hp) hkey

end Kit.Memo
