import DittoSubnet.Kit.Dict

/-!
# Transactions under READ COMMITTED

Any number of transactions run on one table. A statement of a transaction reads the committed rows and its own
uncommitted ones (`view`); an `UPDATE` by primary key waits for the row and rewrites its latest version; locks are
held to the end. A transaction is a program that answers with the effect of its next statement, given the view and what
else the statement was told.

A fact about a running transaction is local: it speaks of the committed rows, of its own state and of the locks it
holds. `Rules` lists what keeps such facts: the steps of the transaction itself, and the commits of others, which hold
none of its locks. `inv_run` is the rule: they hold after every run whose steps were allowed.
-/

namespace Kit.ReadCommitted

variable {T L K R C I : Type}

/-- The effect of one statement; the code goes on with the state it names. -/
inductive Effect (L K R C : Type)
  | read (next : C)
  | lock (l : L) (next : C)
  | update (k : K) (f : R → R) (next : C)
  | insert (k : K) (r : R) (next : C)
  | commit
  | rollback

/-- A running transaction: where its code is, and its uncommitted rows. -/
structure Tx (K R C : Type) where
  code : C
  writes : Dict K R

/-- The committed rows, who holds a lock, and the running transactions. -/
structure System (T L K R C : Type) where
  rows : Dict K R
  owner : L → Option T
  running : T → Option (Tx K R C)

/-- A transaction begins, goes on with its next statement, or is rolled back. -/
inductive Action (T C I : Type)
  | begin (t : T) (code : C)
  | next (t : T) (input : I)
  | abort (t : T)

variable [DecidableEq T] [DecidableEq L] [DecidableEq K]

/-- The committed rows under the uncommitted ones. -/
def view (rows writes : Dict K R) : Dict K R := writes.foldl (fun d kv => Dict.set d kv.1 kv.2) rows

/-- No transaction is running. -/
def start (rows : Dict K R) : System T L K R C := ⟨rows, fun _ => none, fun _ => none⟩

/-- A transaction ends and releases its locks. -/
def System.finish (s : System T L K R C) (t : T) (rows : Dict K R) : System T L K R C where
  rows := rows
  owner := fun l => if s.owner l = some t then none else s.owner l
  running := Function.update s.running t none

/-- A transaction goes on. -/
def System.goOn (s : System T L K R C) (t : T) (tx : Tx K R C) : System T L K R C :=
  { s with running := Function.update s.running t (some tx) }

/-- A transaction goes on with a lock. -/
def System.take (s : System T L K R C) (t : T) (l : L) (tx : Tx K R C) : System T L K R C :=
  { s with owner := Function.update s.owner l (some t), running := Function.update s.running t (some tx) }

/-- Whether a transaction can have a lock now. -/
def System.Free (s : System T L K R C) (t : T) (l : L) : Prop := s.owner l = none ∨ s.owner l = some t

instance (s : System T L K R C) (t : T) (l : L) : Decidable (s.Free t l) := inferInstanceAs (Decidable (_ ∨ _))

variable (rowLock : K → L) (program : Dict K R → C → I → Effect L K R C)

/-- The effect of a statement; one that has to wait for a lock changes nothing. -/
def System.perform (s : System T L K R C) (t : T) (tx : Tx K R C) : Effect L K R C → System T L K R C
  | .read next => s.goOn t ⟨next, tx.writes⟩
  | .lock l next => if s.Free t l then s.take t l ⟨next, tx.writes⟩ else s
  | .update k f next =>
    if s.Free t (rowLock k) then
      match Dict.get? (view s.rows tx.writes) k with
      | some r => s.take t (rowLock k) ⟨next, Dict.set tx.writes k (f r)⟩
      | none => s.finish t s.rows
    else s
  | .insert k r next =>
    if s.Free t (rowLock k) then
      match Dict.get? (view s.rows tx.writes) k with
      | some _ => s.finish t s.rows
      | none => s.take t (rowLock k) ⟨next, Dict.set tx.writes k r⟩
    else s
  | .commit => s.finish t (view s.rows tx.writes)
  | .rollback => s.finish t s.rows

/-- One step of the system. -/
def act (s : System T L K R C) : Action T C I → System T L K R C
  | .begin t code =>
    match s.running t with
    | some _ => s
    | none => s.goOn t ⟨code, []⟩
  | .next t input =>
    match s.running t with
    | none => s
    | some tx => s.perform rowLock t tx (program (view s.rows tx.writes) tx.code input)
  | .abort t => s.finish t s.rows

/-! ## What a view holds -/

theorem get?_foldl_set : ∀ (writes rows : Dict K R), (Dict.keys writes).Nodup → ∀ k,
    Dict.get? (view rows writes) k = (Dict.get? writes k).or (Dict.get? rows k)
  | [], _, _, k => by simp [view, Dict.get?]
  | (k', r) :: writes, rows, hnodup, k => by
    rw [Dict.keys, List.map_cons, List.nodup_cons] at hnodup
    have ih := get?_foldl_set writes (Dict.set rows k' r) hnodup.2 k
    simp only [view, List.foldl_cons] at ih ⊢
    rw [ih, Dict.get?_set]
    by_cases hk : k' = k
    · subst hk
      have hnone : Dict.get? writes k' = none := Dict.get?_eq_none_iff.2 hnodup.1
      simp [Dict.get?, hnone]
    · simp [Dict.get?, hk]

theorem get?_view {rows writes : Dict K R} (h : (Dict.keys writes).Nodup) (k : K) :
    Dict.get? (view rows writes) k = (Dict.get? writes k).or (Dict.get? rows k) := get?_foldl_set writes rows h k

theorem get?_view_of_write {rows writes : Dict K R} (h : (Dict.keys writes).Nodup) {k : K} {r : R}
    (hk : Dict.get? writes k = some r) : Dict.get? (view rows writes) k = some r := by
  rw [get?_view h, hk, Option.some_or]

theorem get?_view_of_not_mem {rows writes : Dict K R} (h : (Dict.keys writes).Nodup) {k : K}
    (hk : k ∉ Dict.keys writes) : Dict.get? (view rows writes) k = Dict.get? rows k := by
  rw [get?_view h, Dict.get?_eq_none_iff.2 hk, Option.none_or]

theorem keys_view_nodup {rows : Dict K R} (h : (Dict.keys rows).Nodup) (writes : Dict K R) :
    (Dict.keys (view rows writes)).Nodup := Dict.keys_foldl_set_nodup writes h

theorem get?_view_set {rows writes : Dict K R} (h : (Dict.keys writes).Nodup) (k k' : K) (r : R) :
    Dict.get? (view rows (Dict.set writes k r)) k' = if k = k' then some r else Dict.get? (view rows writes) k' := by
  rw [get?_view (Dict.keys_set_nodup h k r), Dict.get?_set, get?_view h]
  by_cases hk : k = k'
  · simp [hk]
  · simp [hk]

theorem mem_keys_set {writes : Dict K R} {k k' : K} {r : R} :
    k' ∈ Dict.keys (Dict.set writes k r) ↔ k' = k ∨ k' ∈ Dict.keys writes := by
  rw [Dict.mem_keys_iff, Dict.mem_keys_iff, Dict.get?_set]
  by_cases hk : k = k'
  · simp [hk]
  · simp [hk, Ne.symm hk]

/-! ## Local facts -/

/-- The locks of a transaction. -/
def System.Holds (s : System T L K R C) (t : T) (l : L) : Prop := s.owner l = some t

/-- The uncommitted rows of a transaction are distinct and locked by it. -/
structure Guarded (held : L → Prop) (tx : Tx K R C) : Prop where
  nodup : (Dict.keys tx.writes).Nodup
  locked : ∀ k ∈ Dict.keys tx.writes, held (rowLock k)

/-- What an effect makes of the facts about a transaction. -/
def Keeps (Global : Dict K R → Prop) (Local : (L → Prop) → Dict K R → Tx K R C → Prop) (held : L → Prop)
    (rows : Dict K R) (tx : Tx K R C) : Effect L K R C → Prop
  | .read next => Local held rows ⟨next, tx.writes⟩
  | .lock l next => Local (fun l' => l' = l ∨ held l') rows ⟨next, tx.writes⟩
  | .update k f next => ∀ r, Dict.get? (view rows tx.writes) k = some r →
      Local (fun l => l = rowLock k ∨ held l) rows ⟨next, Dict.set tx.writes k (f r)⟩
  | .insert k r next => Dict.get? (view rows tx.writes) k = none →
      Local (fun l => l = rowLock k ∨ held l) rows ⟨next, Dict.set tx.writes k r⟩
  | .commit => Global (view rows tx.writes)
  | .rollback => True

/-- What keeps the facts about the committed rows and about each running transaction. -/
structure Rules (initial : C → Prop) (clean : Dict K R → C → I → Prop) (Global : Dict K R → Prop)
    (Local : (L → Prop) → Dict K R → Tx K R C → Prop) : Prop where
  begin : ∀ {rows code}, initial code → Local (fun _ => False) rows ⟨code, []⟩
  mono : ∀ {held held' : L → Prop} {rows tx}, (∀ l, held l → held' l) → Local held rows tx → Local held' rows tx
  own : ∀ {held rows tx input}, Global rows → Guarded rowLock held tx → Local held rows tx →
    clean (view rows tx.writes) tx.code input →
    Keeps rowLock Global Local held rows tx (program (view rows tx.writes) tx.code input)
  interfere : ∀ {held held' : L → Prop} {rows tx tx' input}, (∀ l, held l → ¬ held' l) → Global rows →
    Guarded rowLock held tx → Local held rows tx → Guarded rowLock held' tx' → Local held' rows tx' →
    clean (view rows tx'.writes) tx'.code input → program (view rows tx'.writes) tx'.code input = .commit →
    Local held (view rows tx'.writes) tx

/-- The facts hold of the committed rows and of each running transaction. -/
structure Inv (Global : Dict K R → Prop) (Local : (L → Prop) → Dict K R → Tx K R C → Prop)
    (s : System T L K R C) : Prop where
  rows_good : Global s.rows
  guarded : ∀ t tx, s.running t = some tx → Guarded rowLock (s.Holds t) tx
  good : ∀ t tx, s.running t = some tx → Local (s.Holds t) s.rows tx

/-- The steps that a run may take. -/
def Allowed (initial : C → Prop) (clean : Dict K R → C → I → Prop) (s : System T L K R C) : Action T C I → Prop
  | .begin _ code => initial code
  | .next t input => ∀ tx ∈ s.running t, clean (view s.rows tx.writes) tx.code input
  | .abort _ => True

instance (initial : C → Prop) (clean : Dict K R → C → I → Prop) [DecidablePred initial]
    [∀ rows code input, Decidable (clean rows code input)] (s : System T L K R C) :
    ∀ a : Action T C I, Decidable (Allowed initial clean s a)
  | .begin _ code => inferInstanceAs (Decidable (initial code))
  | .next t input => inferInstanceAs (Decidable (∀ tx ∈ s.running t, clean (view s.rows tx.writes) tx.code input))
  | .abort _ => inferInstanceAs (Decidable True)

/-- The runs whose steps are all allowed. -/
def AllowedRun (initial : C → Prop) (clean : Dict K R → C → I → Prop) :
    System T L K R C → List (Action T C I) → Prop
  | _, [] => True
  | s, a :: actions =>
    Allowed initial clean s a ∧ AllowedRun initial clean (act rowLock program s a) actions

instance decidableAllowedRun (initial : C → Prop) (clean : Dict K R → C → I → Prop) [DecidablePred initial]
    [∀ rows code input, Decidable (clean rows code input)] :
    ∀ (s : System T L K R C) (actions : List (Action T C I)),
      Decidable (AllowedRun rowLock program initial clean s actions)
  | _, [] => inferInstanceAs (Decidable True)
  | s, a :: actions =>
    have := decidableAllowedRun initial clean (act rowLock program s a) actions
    inferInstanceAs (Decidable (_ ∧ _))

section

variable {initial : C → Prop} {clean : Dict K R → C → I → Prop} {Global : Dict K R → Prop}
  {Local : (L → Prop) → Dict K R → Tx K R C → Prop} {s : System T L K R C}

omit [DecidableEq L] [DecidableEq K] in
theorem Guarded.mono {held held' : L → Prop} {tx : Tx K R C} (h : Guarded rowLock held tx)
    (hheld : ∀ l, held l → held' l) : Guarded rowLock held' tx :=
  ⟨h.nodup, fun k hk => hheld _ (h.locked k hk)⟩

omit [DecidableEq L] in
theorem Guarded.write {held : L → Prop} {tx : Tx K R C} (h : Guarded rowLock held tx) {k : K} {r : R} {next : C}
    (hk : held (rowLock k)) : Guarded rowLock held ⟨next, Dict.set tx.writes k r⟩ := by
  refine ⟨Dict.keys_set_nodup h.nodup k r, ?_⟩
  intro k' hk'
  rcases mem_keys_set.1 hk' with rfl | hk'
  · exact hk
  · exact h.locked k' hk'

omit [DecidableEq L] [DecidableEq K] in
/-- A transaction that goes on without a new lock. -/
theorem Inv.goOn {t : T} {tx : Tx K R C} (h : Inv rowLock Global Local s)
    (hguarded : Guarded rowLock (s.Holds t) tx) (hlocal : Local (s.Holds t) s.rows tx) :
    Inv rowLock Global Local (s.goOn t tx) := by
  have hrunning : ∀ t' tx', (s.goOn t tx).running t' = some tx' → (t' = t ∧ tx' = tx) ∨ s.running t' = some tx' := by
    intro t' tx' hrun
    by_cases ht : t' = t
    · subst ht
      simp only [System.goOn, Function.update_self, Option.some.injEq] at hrun
      exact .inl ⟨rfl, hrun.symm⟩
    · simp only [System.goOn, Function.update_of_ne ht] at hrun
      exact .inr hrun
  refine ⟨h.rows_good, ?_, ?_⟩
  · intro t' tx' hrun
    rcases hrunning t' tx' hrun with ⟨rfl, rfl⟩ | hrun
    · exact hguarded
    · exact h.guarded t' tx' hrun
  · intro t' tx' hrun
    rcases hrunning t' tx' hrun with ⟨rfl, rfl⟩ | hrun
    · exact hlocal
    · exact h.good t' tx' hrun

omit [DecidableEq T] [DecidableEq K] in
/-- A free lock takes nothing from the others. -/
theorem holds_take {t t' : T} {l l' : L} {owner : L → Option T} (hfree : owner l = none ∨ owner l = some t)
    (h : owner l' = some t') : Function.update owner l (some t) l' = some t' := by
  by_cases hl : l' = l
  · subst hl
    rw [Function.update_self]
    rcases hfree with hnone | hsome
    · rw [hnone] at h
      cases h
    · rw [hsome] at h
      exact h
  · rw [Function.update_of_ne hl]
    exact h

/-- A transaction that goes on with a lock. -/
theorem Inv.take (hrules : Rules rowLock program initial clean Global Local) {t : T} {l : L} {tx : Tx K R C}
    (h : Inv rowLock Global Local s) (hfree : s.Free t l)
    (hguarded : Guarded rowLock (fun l' => l' = l ∨ s.Holds t l') tx)
    (hlocal : Local (fun l' => l' = l ∨ s.Holds t l') s.rows tx) : Inv rowLock Global Local (s.take t l tx) := by
  have hrunning : ∀ t' tx', (s.take t l tx).running t' = some tx' →
      (t' = t ∧ tx' = tx) ∨ s.running t' = some tx' := by
    intro t' tx' hrun
    by_cases ht : t' = t
    · subst ht
      simp only [System.take, Function.update_self, Option.some.injEq] at hrun
      exact .inl ⟨rfl, hrun.symm⟩
    · simp only [System.take, Function.update_of_ne ht] at hrun
      exact .inr hrun
  have hmore : ∀ l', (l' = l ∨ s.Holds t l') → (s.take t l tx).Holds t l' := by
    rintro l' (rfl | hl')
    · exact Function.update_self l' (some t) s.owner
    · exact holds_take hfree hl'
  refine ⟨h.rows_good, ?_, ?_⟩
  · intro t' tx' hrun
    rcases hrunning t' tx' hrun with ⟨rfl, rfl⟩ | hrun
    · exact hguarded.mono rowLock hmore
    · exact (h.guarded t' tx' hrun).mono rowLock fun l' hl' => holds_take hfree hl'
  · intro t' tx' hrun
    rcases hrunning t' tx' hrun with ⟨rfl, rfl⟩ | hrun
    · exact hrules.mono hmore hlocal
    · exact hrules.mono (fun l' hl' => holds_take hfree hl') (h.good t' tx' hrun)

omit [DecidableEq L] in
/-- A transaction that ends: the others see new rows that keep their facts. -/
theorem Inv.finish (hrules : Rules rowLock program initial clean Global Local) {t : T} {rows : Dict K R}
    (h : Inv rowLock Global Local s) (hrows : Global rows)
    (hothers : ∀ t' tx', t' ≠ t → s.running t' = some tx' → Local (s.Holds t') rows tx') :
    Inv rowLock Global Local (s.finish t rows) := by
  have hrunning : ∀ t' tx', (s.finish t rows).running t' = some tx' → t' ≠ t ∧ s.running t' = some tx' := by
    intro t' tx' hrun
    by_cases ht : t' = t
    · subst ht
      simp [System.finish] at hrun
    · simp only [System.finish, Function.update_of_ne ht] at hrun
      exact ⟨ht, hrun⟩
  have hholds : ∀ t' l, t' ≠ t → s.Holds t' l → (s.finish t rows).Holds t' l := by
    intro t' l ht hl
    simp only [System.Holds, System.finish] at hl ⊢
    rw [hl, if_neg (fun heq => ht (Option.some.inj heq))]
  refine ⟨hrows, ?_, ?_⟩
  · intro t' tx' hrun
    obtain ⟨ht, hrun⟩ := hrunning t' tx' hrun
    exact (h.guarded t' tx' hrun).mono rowLock fun l => hholds t' l ht
  · intro t' tx' hrun
    obtain ⟨ht, hrun⟩ := hrunning t' tx' hrun
    exact hrules.mono (fun l => hholds t' l ht) (hothers t' tx' ht hrun)

/-- An allowed step keeps the facts. -/
theorem Inv.act (hrules : Rules rowLock program initial clean Global Local) (h : Inv rowLock Global Local s)
    {a : Action T C I} (hallowed : Allowed initial clean s a) :
    Inv rowLock Global Local (act rowLock program s a) := by
  have habort : ∀ t, Inv rowLock Global Local (s.finish t s.rows) := by
    intro t
    exact h.finish rowLock program hrules h.rows_good fun t' tx' _ hrun => h.good t' tx' hrun
  cases a with
  | begin t code =>
    simp only [ReadCommitted.act]
    split
    · exact h
    · refine h.goOn rowLock ⟨List.nodup_nil, ?_⟩ ?_
      · intro k hk
        cases hk
      · exact hrules.mono (fun _ => False.elim) (hrules.begin hallowed)
  | abort t => exact habort t
  | next t input =>
    simp only [ReadCommitted.act]
    split
    · exact h
    rename_i tx hrun
    have hclean := hallowed tx hrun
    have hguarded := h.guarded t tx hrun
    have hkeeps := hrules.own h.rows_good hguarded (h.good t tx hrun) hclean
    cases heffect : program (view s.rows tx.writes) tx.code input with
    | read next =>
      rw [heffect] at hkeeps
      exact h.goOn rowLock ⟨hguarded.nodup, hguarded.locked⟩ hkeeps
    | lock l next =>
      rw [heffect] at hkeeps
      simp only [System.perform]
      split
      · rename_i hfree
        exact h.take rowLock program hrules hfree
          ⟨hguarded.nodup, fun k hk => .inr (hguarded.locked k hk)⟩ hkeeps
      · exact h
    | update k f next =>
      rw [heffect] at hkeeps
      simp only [System.perform]
      split
      · rename_i hfree
        split
        · rename_i r hr
          exact h.take rowLock program hrules hfree
            ((hguarded.mono rowLock fun l hl => .inr hl).write rowLock (.inl rfl)) (hkeeps r hr)
        · exact habort t
      · exact h
    | insert k r next =>
      rw [heffect] at hkeeps
      simp only [System.perform]
      split
      · rename_i hfree
        split
        · exact habort t
        · rename_i hr
          exact h.take rowLock program hrules hfree
            ((hguarded.mono rowLock fun l hl => .inr hl).write rowLock (.inl rfl)) (hkeeps hr)
      · exact h
    | commit =>
      rw [heffect] at hkeeps
      refine h.finish rowLock program hrules hkeeps ?_
      intro t' tx' ht hrun'
      refine hrules.interfere ?_ h.rows_good (h.guarded t' tx' hrun') (h.good t' tx' hrun') hguarded
        (h.good t tx hrun) hclean heffect
      intro l hl hl'
      exact ht (Option.some.inj (hl.symm.trans hl'))
    | rollback => exact habort t

/-- The facts hold after every run whose steps were allowed. -/
theorem inv_run (hrules : Rules rowLock program initial clean Global Local) :
    ∀ (actions : List (Action T C I)) {s : System T L K R C}, Inv rowLock Global Local s →
      AllowedRun rowLock program initial clean s actions →
      Inv rowLock Global Local (actions.foldl (act rowLock program) s)
  | [], _, h, _ => h
  | _ :: actions, _, h, hallowed =>
    inv_run hrules actions (h.act rowLock program hrules hallowed.1) hallowed.2

omit [DecidableEq T] [DecidableEq L] [DecidableEq K] in
theorem Inv.start {rows : Dict K R} (h : Global rows) :
    Inv rowLock Global Local (start rows : System T L K R C) := by
  refine ⟨h, ?_, ?_⟩
  · intro t tx hrun
    cases hrun
  · intro t tx hrun
    cases hrun

/-- Only a commit changes committed rows. -/
theorem act_rows (s : System T L K R C) (a : Action T C I) :
    (act rowLock program s a).rows = s.rows ∨ ∃ t tx input, a = .next t input ∧ s.running t = some tx ∧
      program (view s.rows tx.writes) tx.code input = .commit ∧
      (act rowLock program s a).rows = view s.rows tx.writes := by
  cases a with
  | begin t code =>
    simp only [act]
    split
    · exact .inl rfl
    · exact .inl rfl
  | abort t => exact .inl rfl
  | next t input =>
    simp only [act]
    split
    · exact .inl rfl
    rename_i tx hrun
    cases heffect : program (view s.rows tx.writes) tx.code input with
    | read next => exact .inl rfl
    | lock l next =>
      refine .inl ?_
      simp only [System.perform]
      split
      · rfl
      · rfl
    | update k f next =>
      refine .inl ?_
      simp only [System.perform]
      split
      · split
        · rfl
        · rfl
      · rfl
    | insert k r next =>
      refine .inl ?_
      simp only [System.perform]
      split
      · split
        · rfl
        · rfl
      · rfl
    | commit => exact .inr ⟨t, tx, input, rfl, hrun, heffect, rfl⟩
    | rollback => exact .inl rfl

end

end Kit.ReadCommitted
