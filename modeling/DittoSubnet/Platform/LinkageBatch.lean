import DittoSubnet.Platform.Owners

/-!
# The page resolver, row by row

`resolve_owner_linkage` and `resolve_owner_linkage_batch` of `ditto/db/queries/queue_order.py` on the rows they read:
the outer join of agents and payments, and for a page the three dictionaries `direct_links`, `coldkeys_by_hotkey` and
`hotkeys_by_coldkey` built over the union of its owners. A lookup in these dictionaries at a key of one owner gives what
a query for that owner alone gives (`pageLinkage_eq`), so a page answers each of its agents as the single resolver does,
whatever else is in the page (`page_answers_alone`). On the tables of the queue both are the resolvers of `Owners`.
-/

namespace DittoSubnet.Platform.Queue

open Kit

/-- The tables that the resolvers read, with their unique keys. -/
structure LinkageTables where
  agents : List Agent
  payments : List EvaluationPayment
  attestations : List OwnerAttestation
  agents_pkey : (agents.map (·.agentId)).Nodup
  payments_agent_id_key : (payments.filterMap (·.agentId)).Nodup

namespace LinkageTables

variable (t : LinkageTables) (netuid : ℕ)

/-! ## The reads -/

/-- The agents asked for, outer-joined to their payments: hotkey and payment-time coldkey. -/
def agentRows (agentIds : Finset String) : List (Agent × Option String) :=
  (t.agents.filter fun a => a.agentId ∈ agentIds).flatMap fun a =>
    match t.payments.filter fun p => p.agentId = some a.agentId with
    | [] => [(a, none)]
    | p :: ps => (p :: ps).map fun p => (a, some p.minerColdkey)

/-- The attestations in force that name one of the hotkeys. -/
def linksOf (hotkeys : Finset String) : List OwnerAttestation :=
  t.attestations.filter fun a =>
    a.netuid = netuid ∧ a.revokedAt = none ∧ (a.hotkeyLo ∈ hotkeys ∨ a.hotkeyHi ∈ hotkeys)

/-- The payments signed by one of the hotkeys. -/
def paymentsOf (hotkeys : Finset String) : List EvaluationPayment := t.payments.filter fun p => p.minerHotkey ∈ hotkeys

/-- The payments funded by one of the coldkeys. -/
def fundedBy (coldkeys : Finset String) : List EvaluationPayment := t.payments.filter fun p => p.minerColdkey ∈ coldkeys

/-! ## One agent -/

/-- The linkage of one agent row. -/
def linkageOf (row : Agent × Option String) : OwnerLinkage :=
  let ownerHotkey := row.1.minerHotkey
  let directlyAttested := ((t.linksOf netuid {ownerHotkey}).map fun a =>
    if a.hotkeyLo = ownerHotkey then a.hotkeyHi else a.hotkeyLo).toFinset
  let ownerHotkeys := insert ownerHotkey directlyAttested
  let linkedColdkeys := ((t.paymentsOf ownerHotkeys).map (·.minerColdkey)).toFinset ∪ row.2.toFinset
  { hotkey := ownerHotkey
    coldkeys := linkedColdkeys
    hotkeys := if linkedColdkeys ≠ ∅ then
        ownerHotkeys ∪ ((t.fundedBy linkedColdkeys).map (·.minerHotkey)).toFinset
      else ownerHotkeys }

/-- `resolve_owner_linkage`. The row must be unique: anything else is an error. -/
def resolveOwnerLinkage (agentId : String) : Option OwnerLinkage :=
  match t.agentRows {agentId} with
  | [row] => some (t.linkageOf netuid row)
  | _ => none

/-! ## A page -/

/-- `direct_links`: the other side of each attestation, from both sides. -/
def directLinks (ownerHotkeys : Finset String) : Dict String (Finset String) :=
  Dict.collect ((t.linksOf netuid ownerHotkeys).flatMap fun a => [(a.hotkeyLo, a.hotkeyHi), (a.hotkeyHi, a.hotkeyLo)])

/-- `coldkeys_by_hotkey`: every payment-time coldkey of the hotkeys in scope. -/
def coldkeysByHotkey (scope : Finset String) : Dict String (Finset String) :=
  Dict.collect ((t.paymentsOf scope).map fun p => (p.minerHotkey, p.minerColdkey)).dedup

/-- `hotkeys_by_coldkey`: every hotkey that the coldkeys have funded. -/
def hotkeysByColdkey (reachable : Finset String) : Dict String (Finset String) :=
  if reachable ≠ ∅ then Dict.collect ((t.fundedBy reachable).map fun p => (p.minerColdkey, p.minerHotkey)).dedup else []

/-- The set at a key, empty by default. -/
def setAt (d : Dict String (Finset String)) (k : String) : Finset String := (d.get? k).getD ∅

/-- The linkage of one agent row, read off the dictionaries of the page. -/
def pageLinkage (links coldkeys hotkeys : Dict String (Finset String)) (row : Agent × Option String) : OwnerLinkage :=
  let ownerHotkey := row.1.minerHotkey
  let directlyAttested := setAt links ownerHotkey
  let linkedColdkeys := setAt coldkeys ownerHotkey ∪ directlyAttested.biUnion (setAt coldkeys) ∪ row.2.toFinset
  { hotkey := ownerHotkey
    coldkeys := linkedColdkeys
    hotkeys := insert ownerHotkey directlyAttested ∪ linkedColdkeys.biUnion (setAt hotkeys) }

/-- `resolve_owner_linkage_batch`. -/
def resolveOwnerLinkageBatch (agentIds : List String) : Dict String OwnerLinkage :=
  let requested := agentIds.toFinset
  if requested = ∅ then []
  else
    let agentRows := t.agentRows requested
    let ownerHotkeys := (agentRows.map (·.1.minerHotkey)).toFinset
    let links := t.directLinks netuid ownerHotkeys
    let paymentScopeHotkeys := ownerHotkeys ∪ ownerHotkeys.biUnion (setAt links)
    -- hop one: every payment-time coldkey ever observed for these hotkeys
    let coldkeys := t.coldkeysByHotkey paymentScopeHotkeys
    let reachableColdkeys := coldkeys.values ∪ (agentRows.filterMap (·.2)).toFinset
    -- hop two: every hotkey those coldkeys have funded
    let hotkeys := t.hotkeysByColdkey reachableColdkeys
    Dict.ofList (agentRows.map fun row => (row.1.agentId, pageLinkage links coldkeys hotkeys row))

/-! ## The dictionaries -/

variable {t netuid}

theorem mem_setAt_directLinks {owners : Finset String} {h k : String} (hh : h ∈ owners) :
    k ∈ setAt (t.directLinks netuid owners) h ↔
      k ∈ ((t.linksOf netuid {h}).map fun a => if a.hotkeyLo = h then a.hotkeyHi else a.hotkeyLo).toFinset := by
  simp only [setAt, directLinks, Dict.mem_getD_collect, linksOf, List.mem_flatMap, List.mem_filter, List.mem_cons,
    List.not_mem_nil, or_false, Prod.mk.injEq, List.mem_toFinset, List.mem_map, decide_eq_true_eq, Finset.mem_singleton]
  constructor
  · rintro ⟨a, ⟨ha, hnet, hlive, -⟩, ⟨rfl, rfl⟩ | ⟨rfl, rfl⟩⟩
    · exact ⟨a, ⟨ha, hnet, hlive, .inl rfl⟩, if_pos rfl⟩
    · refine ⟨a, ⟨ha, hnet, hlive, .inr rfl⟩, ?_⟩
      split
      · rename_i heq
        exact heq.symm
      · rfl
  · rintro ⟨a, ⟨ha, hnet, hlive, hside⟩, rfl⟩
    by_cases hlo : a.hotkeyLo = h
    · exact ⟨a, ⟨ha, hnet, hlive, .inl (hlo ▸ hh)⟩, .inl ⟨hlo.symm, (if_pos hlo)⟩⟩
    · have hhi : a.hotkeyHi = h := hside.resolve_left hlo
      exact ⟨a, ⟨ha, hnet, hlive, .inr (hhi ▸ hh)⟩, .inr ⟨hhi.symm, (if_neg hlo)⟩⟩

theorem mem_setAt_coldkeysByHotkey {scope : Finset String} {h k : String} :
    k ∈ setAt (t.coldkeysByHotkey scope) h ↔ h ∈ scope ∧ ∃ p ∈ t.payments, p.minerHotkey = h ∧ p.minerColdkey = k := by
  simp only [setAt, coldkeysByHotkey, Dict.mem_getD_collect, List.mem_dedup, paymentsOf, List.mem_map, List.mem_filter,
    decide_eq_true_eq, Prod.mk.injEq]
  constructor
  · rintro ⟨p, ⟨hp, hs⟩, rfl, rfl⟩
    exact ⟨hs, p, hp, rfl, rfl⟩
  · rintro ⟨hs, p, hp, rfl, rfl⟩
    exact ⟨p, ⟨hp, hs⟩, rfl, rfl⟩

theorem mem_values_coldkeysByHotkey {scope : Finset String} {k : String} :
    k ∈ (t.coldkeysByHotkey scope).values ↔ ∃ p ∈ t.payments, p.minerHotkey ∈ scope ∧ p.minerColdkey = k := by
  simp only [coldkeysByHotkey, Dict.mem_values_collect, List.mem_dedup, paymentsOf, List.mem_map, List.mem_filter,
    decide_eq_true_eq, Prod.mk.injEq]
  constructor
  · rintro ⟨h, p, ⟨hp, hs⟩, rfl, rfl⟩
    exact ⟨p, hp, hs, rfl⟩
  · rintro ⟨p, hp, hs, rfl⟩
    exact ⟨_, p, ⟨hp, hs⟩, rfl, rfl⟩

theorem mem_setAt_hotkeysByColdkey {reachable : Finset String} {c k : String} :
    k ∈ setAt (t.hotkeysByColdkey reachable) c ↔
      c ∈ reachable ∧ ∃ p ∈ t.payments, p.minerColdkey = c ∧ p.minerHotkey = k := by
  unfold setAt hotkeysByColdkey
  by_cases hempty : reachable = ∅
  · simp [hempty, Dict.get?]
  · rw [if_pos hempty]
    simp only [Dict.mem_getD_collect, List.mem_dedup, fundedBy, List.mem_map, List.mem_filter, decide_eq_true_eq,
      Prod.mk.injEq]
    constructor
    · rintro ⟨p, ⟨hp, hs⟩, rfl, rfl⟩
      exact ⟨hs, p, hp, rfl, rfl⟩
    · rintro ⟨hs, p, hp, rfl, rfl⟩
      exact ⟨p, ⟨hp, hs⟩, rfl, rfl⟩

/-! ## One owner in a page -/

variable (t netuid) in
/-- The dictionaries of a page that reads the owner, the owner's links and the owner's coldkeys give its linkage. -/
theorem pageLinkage_eq {owners scope reachable : Finset String} {row : Agent × Option String}
    (howner : row.1.minerHotkey ∈ owners)
    (hscope : insert row.1.minerHotkey (setAt (t.directLinks netuid owners) row.1.minerHotkey) ⊆ scope)
    (hreach : (t.linkageOf netuid row).coldkeys ⊆ reachable) :
    pageLinkage (t.directLinks netuid owners) (t.coldkeysByHotkey scope) (t.hotkeysByColdkey reachable) row =
      t.linkageOf netuid row := by
  have hattested : setAt (t.directLinks netuid owners) row.1.minerHotkey =
      ((t.linksOf netuid {row.1.minerHotkey}).map fun a =>
        if a.hotkeyLo = row.1.minerHotkey then a.hotkeyHi else a.hotkeyLo).toFinset :=
    Finset.ext fun k => mem_setAt_directLinks howner
  have hcold : setAt (t.coldkeysByHotkey scope) row.1.minerHotkey ∪
      (setAt (t.directLinks netuid owners) row.1.minerHotkey).biUnion (setAt (t.coldkeysByHotkey scope)) ∪
        row.2.toFinset = (t.linkageOf netuid row).coldkeys := by
    ext k
    simp only [linkageOf, ← hattested, Finset.mem_union, Finset.mem_biUnion, mem_setAt_coldkeysByHotkey, paymentsOf,
      List.mem_toFinset, List.mem_map, List.mem_filter, decide_eq_true_eq, Finset.mem_insert]
    refine or_congr_left ⟨?_, ?_⟩
    · rintro (⟨-, p, hp, hh, rfl⟩ | ⟨h, hd, -, p, hp, rfl, rfl⟩)
      · exact ⟨p, ⟨hp, .inl hh⟩, rfl⟩
      · exact ⟨p, ⟨hp, .inr hd⟩, rfl⟩
    · rintro ⟨p, ⟨hp, hh | hd⟩, rfl⟩
      · exact .inl ⟨hscope (Finset.mem_insert_self _ _), p, hp, hh, rfl⟩
      · exact .inr ⟨_, hd, hscope (Finset.mem_insert_of_mem hd), p, hp, rfl, rfl⟩
  have hhot : insert row.1.minerHotkey (setAt (t.directLinks netuid owners) row.1.minerHotkey) ∪
      (t.linkageOf netuid row).coldkeys.biUnion (setAt (t.hotkeysByColdkey reachable)) =
        (t.linkageOf netuid row).hotkeys := by
    have hfunded : (t.linkageOf netuid row).coldkeys.biUnion (setAt (t.hotkeysByColdkey reachable)) =
        ((t.fundedBy (t.linkageOf netuid row).coldkeys).map (·.minerHotkey)).toFinset := by
      ext k
      simp only [Finset.mem_biUnion, mem_setAt_hotkeysByColdkey, fundedBy, List.mem_toFinset, List.mem_map,
        List.mem_filter, decide_eq_true_eq]
      constructor
      · rintro ⟨c, hc, -, p, hp, rfl, rfl⟩
        exact ⟨p, ⟨hp, hc⟩, rfl⟩
      · rintro ⟨p, ⟨hp, hc⟩, rfl⟩
        exact ⟨_, hc, hreach hc, p, hp, rfl, rfl⟩
    rw [hfunded, hattested]
    by_cases hnone : (t.linkageOf netuid row).coldkeys = ∅
    · have hown : (t.linkageOf netuid row).hotkeys = insert row.1.minerHotkey
          ((t.linksOf netuid {row.1.minerHotkey}).map fun a =>
            if a.hotkeyLo = row.1.minerHotkey then a.hotkeyHi else a.hotkeyLo).toFinset := if_neg (not_not.2 hnone)
      rw [hown, hnone]
      simp [fundedBy]
    · exact (if_pos hnone).symm
  unfold pageLinkage
  simp only [hcold, hhot]
  rfl

/-! ## The rows of a page -/

/-- The payment-time coldkey of an agent. -/
def coldkeyOf (t : LinkageTables) (agentId : String) : Option String :=
  (t.payments.find? fun p => p.agentId = some agentId).map (·.minerColdkey)

/-- An agent has one payment at most. -/
theorem paymentsOfAgent_eq (t : LinkageTables) (agentId : String) :
    (t.payments.filter fun p => p.agentId = some agentId) = [] ∧ t.coldkeyOf agentId = none ∨
      ∃ p, (t.payments.filter fun p => p.agentId = some agentId) = [p] ∧ t.coldkeyOf agentId = some p.minerColdkey := by
  unfold coldkeyOf
  have hunique := t.payments_agent_id_key
  generalize t.payments = payments at hunique
  induction payments with
  | nil => exact .inl ⟨rfl, rfl⟩
  | cons p ps ih =>
    by_cases hp : p.agentId = some agentId
    · refine .inr ⟨p, ?_, by simp [hp]⟩
      have hrest : ∀ q ∈ ps, ¬ q.agentId = some agentId := by
        intro q hq hqid
        rw [List.filterMap_cons_some hp, List.nodup_cons] at hunique
        exact hunique.1 (List.mem_filterMap.2 ⟨q, hq, hqid⟩)
      simpa [hp] using hrest
    · have hps : (ps.filterMap (·.agentId)).Nodup :=
        hunique.sublist (List.Sublist.filterMap _ (List.sublist_cons_self p ps))
      simpa [hp] using ih hps

/-- So the outer join gives one row for each agent. -/
theorem agentRows_eq (t : LinkageTables) (agentIds : Finset String) :
    t.agentRows agentIds = (t.agents.filter fun a => a.agentId ∈ agentIds).map fun a => (a, t.coldkeyOf a.agentId) := by
  rw [agentRows, List.map_eq_flatMap]
  refine congrArg (fun f => List.flatMap f _) (funext fun a => ?_)
  rcases t.paymentsOfAgent_eq a.agentId with ⟨hnone, hcold⟩ | ⟨p, hone, hcold⟩
  · simp only [hnone, hcold]
  · simp only [hone, hcold, List.map_cons, List.map_nil]

theorem mem_agentRows {agentIds : Finset String} {row : Agent × Option String} :
    row ∈ t.agentRows agentIds ↔ row.1 ∈ t.agents ∧ row.1.agentId ∈ agentIds ∧ row.2 = t.coldkeyOf row.1.agentId := by
  simp only [agentRows_eq, List.mem_map, List.mem_filter, decide_eq_true_eq]
  constructor
  · rintro ⟨a, ⟨ha, hid⟩, rfl⟩
    exact ⟨ha, hid, rfl⟩
  · rintro ⟨ha, hid, hcold⟩
    exact ⟨row.1, ⟨ha, hid⟩, by rw [← hcold]⟩

theorem agentId_inj (t : LinkageTables) {a b : Agent} (ha : a ∈ t.agents) (hb : b ∈ t.agents)
    (h : a.agentId = b.agentId) : a = b := List.inj_on_of_nodup_map t.agents_pkey ha hb h

/-- The single resolver answers for each agent that exists. -/
theorem resolveOwnerLinkage_of_mem {a : Agent} (ha : a ∈ t.agents) :
    t.resolveOwnerLinkage netuid a.agentId = some (t.linkageOf netuid (a, t.coldkeyOf a.agentId)) := by
  have hrows : t.agentRows {a.agentId} = [(a, t.coldkeyOf a.agentId)] := by
    have hone : (t.agents.filter fun b => decide (b.agentId ∈ ({a.agentId} : Finset String))) = [a] := by
      have hpkey := t.agents_pkey
      have hnodup : t.agents.Nodup := List.Nodup.of_map _ hpkey
      refine List.perm_singleton.1 ((List.perm_ext_iff_of_nodup (hnodup.filter _) (List.nodup_singleton a)).2 fun b =>
        ?_)
      simp only [List.mem_filter, Finset.mem_singleton, decide_eq_true_eq, List.mem_singleton]
      exact ⟨fun h => t.agentId_inj h.1 ha h.2, by rintro rfl; exact ⟨ha, rfl⟩⟩
    rw [agentRows_eq, hone]
    rfl
  rw [resolveOwnerLinkage, hrows]

theorem resolveOwnerLinkage_eq_none_iff {agentId : String} :
    t.resolveOwnerLinkage netuid agentId = none ↔ ∀ a ∈ t.agents, a.agentId ≠ agentId := by
  constructor
  · rintro h a ha rfl
    rw [resolveOwnerLinkage_of_mem ha] at h
    cases h
  · intro h
    have hrows : t.agentRows {agentId} = [] := by
      rw [List.eq_nil_iff_forall_not_mem]
      intro row hrow
      obtain ⟨ha, hid, -⟩ := mem_agentRows.1 hrow
      exact h row.1 ha (Finset.mem_singleton.1 hid)
    rw [resolveOwnerLinkage, hrows]

/-! ## The page -/

/-- The hotkeys whose payments a page reads. -/
def pageScope (t : LinkageTables) (netuid : ℕ) (owners : Finset String) : Finset String :=
  owners ∪ owners.biUnion (setAt (t.directLinks netuid owners))

/-- The coldkeys whose payments a page reads. -/
def pageReachable (t : LinkageTables) (netuid : ℕ) (rows : List (Agent × Option String)) (owners : Finset String) :
    Finset String :=
  (t.coldkeysByHotkey (t.pageScope netuid owners)).values ∪ (rows.filterMap (·.2)).toFinset

/-- The page reads the payments of every hotkey and every coldkey that one of its owners needs. -/
theorem pageLinkage_of_mem {rows : List (Agent × Option String)} {owners : Finset String}
    (howners : owners = (rows.map (·.1.minerHotkey)).toFinset) {row : Agent × Option String} (hrow : row ∈ rows) :
    pageLinkage (t.directLinks netuid owners) (t.coldkeysByHotkey (t.pageScope netuid owners))
      (t.hotkeysByColdkey (t.pageReachable netuid rows owners)) row = t.linkageOf netuid row := by
  have howner : row.1.minerHotkey ∈ owners := by
    rw [howners]
    exact List.mem_toFinset.2 (List.mem_map_of_mem hrow)
  have hscope : insert row.1.minerHotkey (setAt (t.directLinks netuid owners) row.1.minerHotkey) ⊆
      t.pageScope netuid owners :=
    Finset.insert_subset (Finset.mem_union_left _ howner)
      ((Finset.subset_biUnion_of_mem (setAt (t.directLinks netuid owners)) howner).trans Finset.subset_union_right)
  refine t.pageLinkage_eq netuid howner hscope fun k hk => ?_
  rw [linkageOf, Finset.mem_union] at hk
  rcases hk with hk | hk
  · have hattested : setAt (t.directLinks netuid owners) row.1.minerHotkey = _ :=
      Finset.ext fun k => mem_setAt_directLinks howner
    simp only [← hattested, paymentsOf, List.mem_toFinset, List.mem_map, List.mem_filter, decide_eq_true_eq] at hk
    obtain ⟨p, ⟨hp, hh⟩, rfl⟩ := hk
    exact Finset.mem_union_left _ (mem_values_coldkeysByHotkey.2 ⟨p, hp, hscope hh, rfl⟩)
  · exact Finset.mem_union_right _ (List.mem_toFinset.2 (List.mem_filterMap.2 ⟨row, hrow, by simpa using hk⟩))

/-- The page gives each row it reads the linkage of that row. -/
theorem resolveOwnerLinkageBatch_eq (t : LinkageTables) (netuid : ℕ) (agentIds : List String) :
    t.resolveOwnerLinkageBatch netuid agentIds =
      (t.agentRows agentIds.toFinset).map fun row => (row.1.agentId, t.linkageOf netuid row) := by
  have hkeys : (Dict.keys ((t.agentRows agentIds.toFinset).map fun row =>
      (row.1.agentId, t.linkageOf netuid row))).Nodup := by
    rw [Dict.keys, List.map_map, agentRows_eq, List.map_map]
    exact (List.filter_sublist.map _).nodup t.agents_pkey
  unfold resolveOwnerLinkageBatch
  by_cases hempty : agentIds.toFinset = ∅
  · simp [hempty, agentRows]
  · rw [if_neg hempty, ← Dict.ofList_eq_self hkeys]
    exact congrArg Dict.ofList (List.map_congr_left fun row hrow =>
      congrArg (row.1.agentId, ·) (pageLinkage_of_mem rfl hrow))

/-- The page answers the agents asked for, and gives each the answer of the single resolver. -/
theorem get?_resolveOwnerLinkageBatch (agentIds : List String) (agentId : String) :
    Dict.get? (t.resolveOwnerLinkageBatch netuid agentIds) agentId =
      if agentId ∈ agentIds then t.resolveOwnerLinkage netuid agentId else none := by
  rw [resolveOwnerLinkageBatch_eq]
  cases hget : Dict.get? ((t.agentRows agentIds.toFinset).map fun row =>
      (row.1.agentId, t.linkageOf netuid row)) agentId with
  | some linkage =>
    obtain ⟨row, hrow, heq⟩ := List.mem_map.1 (Dict.mem_of_get? hget)
    obtain ⟨rfl, rfl⟩ := Prod.mk.inj heq
    obtain ⟨ha, hid, hcold⟩ := mem_agentRows.1 hrow
    rw [if_pos (List.mem_toFinset.1 hid), resolveOwnerLinkage_of_mem ha, ← hcold]
  | none =>
    rw [Dict.get?_eq_none_iff] at hget
    split
    · rename_i hid
      refine (resolveOwnerLinkage_eq_none_iff.2 fun a ha hida => hget ?_).symm
      refine List.mem_map.2 ⟨_, List.mem_map.2 ⟨(a, t.coldkeyOf a.agentId), ?_, rfl⟩, hida⟩
      exact mem_agentRows.2 ⟨ha, by rw [hida]; exact List.mem_toFinset.2 hid, rfl⟩
    · rfl

/-- Each requested agent that exists gets the linkage that the single resolver gives it alone, nothing else is
answered, and the answer does not depend on the rest of the page. -/
theorem page_answers_alone (t : LinkageTables) (netuid : ℕ) (agentIds : List String) :
    (∀ a ∈ t.agents, a.agentId ∈ agentIds →
      ∃ linkage, t.resolveOwnerLinkage netuid a.agentId = some linkage ∧
        Dict.get? (t.resolveOwnerLinkageBatch netuid agentIds) a.agentId = some linkage ∧
        ∀ agentIds' : List String, a.agentId ∈ agentIds' →
          Dict.get? (t.resolveOwnerLinkageBatch netuid agentIds') a.agentId = some linkage) ∧
    ∀ agentId, (agentId ∉ agentIds ∨ ∀ a ∈ t.agents, a.agentId ≠ agentId) →
      Dict.get? (t.resolveOwnerLinkageBatch netuid agentIds) agentId = none := by
  constructor
  · intro a ha hid
    refine ⟨_, resolveOwnerLinkage_of_mem ha, ?_, fun agentIds' hid' => ?_⟩
    · rw [get?_resolveOwnerLinkageBatch, if_pos hid, resolveOwnerLinkage_of_mem ha]
    · rw [get?_resolveOwnerLinkageBatch, if_pos hid', resolveOwnerLinkage_of_mem ha]
  · rintro agentId (hid | hnone)
    · rw [get?_resolveOwnerLinkageBatch, if_neg hid]
    · rw [get?_resolveOwnerLinkageBatch, resolveOwnerLinkage_eq_none_iff.2 hnone, ite_self]

end LinkageTables

/-! ## The tables of the queue -/

section Tables

variable {K : Type} (t : Tables K) (netuid : ℕ)

/-- The tables of the queue that the resolvers read. -/
def Tables.linkageTables : LinkageTables where
  agents := t.agents
  payments := t.payments
  attestations := t.attestations
  agents_pkey := t.agents_pkey
  payments_agent_id_key := t.payments_agent_id_key

theorem linkageOf_linkageTables (a : Agent) :
    t.linkageTables.linkageOf netuid (a, t.linkageTables.coldkeyOf a.agentId) = t.ownerLinkage netuid a := by
  have hattested : ((t.linkageTables.linksOf netuid {a.minerHotkey}).map fun l =>
      if l.hotkeyLo = a.minerHotkey then l.hotkeyHi else l.hotkeyLo).toFinset =
        t.directlyAttested netuid a.minerHotkey := by
    simp only [LinkageTables.linksOf, Finset.mem_singleton]
    rfl
  have hcold : t.linkageTables.coldkeyOf a.agentId = (t.paymentOf a.agentId).map (·.minerColdkey) := rfl
  simp only [LinkageTables.linkageOf, Tables.ownerLinkage, hattested, hcold]
  generalize t.paymentOf a.agentId = payment
  cases payment with
  | none =>
    simp only [Option.map_none, Option.toFinset_none, Finset.union_empty]
    rfl
  | some p =>
    simp only [Option.map_some, Option.toFinset_some, Finset.union_comm _ {p.minerColdkey}, ← Finset.insert_eq]
    rfl

/-- On the tables of the queue the resolver that reads rows is the one that collects sets. -/
theorem resolveOwnerLinkage_linkageTables (agentId : String) :
    t.linkageTables.resolveOwnerLinkage netuid agentId = t.resolveOwnerLinkage netuid agentId := by
  unfold Tables.resolveOwnerLinkage
  cases hfind : t.agents.find? fun a => decide (a.agentId = agentId) with
  | none =>
    rw [List.find?_eq_none] at hfind
    exact LinkageTables.resolveOwnerLinkage_eq_none_iff.2 fun a ha => by simpa using hfind a ha
  | some a =>
    have hid : a.agentId = agentId := by simpa using List.find?_some hfind
    have ha : a ∈ t.linkageTables.agents := List.mem_of_find?_eq_some hfind
    rw [← hid, LinkageTables.resolveOwnerLinkage_of_mem ha, linkageOf_linkageTables]
    rfl

end Tables

end DittoSubnet.Platform.Queue
