/-
The cold identities of the `cold_id_remap` regime (`_cold_id_remap` of `evaluation/regimes.py`), and features under them.

- `coldCandidate_fresh`: a collision is followed by another attempt under another name, so that an injective `uuid5` ends the
  loop with a new identity.
- `coldMapping_ok`: the mapping names every identity of the corpus, injectively and outside of them.
- `features_under_names`: features do not depend on names, under these or any other injective ones.
-/
import Apar.Evaluation.Regimes
import Apar.Features.FeatureRenaming

namespace Apar

open Exec

namespace Regimes

variable {uuid5 : String → String} {salt : String}

/-! ## One identity -/

/-- attempts have different names -/
theorem coldName_injective (salt identity : String) : Function.Injective (coldName salt identity) := by
  have hsuffix : ∀ m n : ℕ, (if m = 0 then "" else ":collision:" ++ String.ofList (Decimal.natText m)) =
      (if n = 0 then "" else ":collision:" ++ String.ofList (Decimal.natText n)) → m = n := by
    intro m n h
    have hne : ∀ k : ℕ, ":collision:" ++ String.ofList (Decimal.natText k) ≠ "" := by
      intro k hk
      have hlist := congrArg String.toList hk
      rw [String.toList_append] at hlist
      simp at hlist
    by_cases hm : m = 0
    · by_cases hn : n = 0
      · rw [hm, hn]
      · rw [if_pos hm, if_neg hn] at h
        exact absurd h.symm (hne n)
    · by_cases hn : n = 0
      · rw [if_neg hm, if_pos hn] at h
        exact absurd h (hne m)
      · rw [if_neg hm, if_neg hn] at h
        have hlist := congrArg String.toList h
        simp only [String.toList_append, String.toList_ofList] at hlist
        exact Decimal.natText_inj (List.append_cancel_left hlist)
  intro m n h
  have hlist := congrArg String.toList h
  simp only [coldName, String.toList_append] at hlist
  exact hsuffix m n (String.toList_inj.1 (List.append_cancel_left hlist))

variable {fuel attempt fuel' : ℕ} {identity candidate : String} {taken : List String}
  {observations : List ObservedEvent} {mapping : Dict String String}

theorem coldCandidate_some (h : coldCandidate uuid5 salt taken identity fuel attempt = some candidate) :
    candidate ∉ taken := by
  induction fuel generalizing attempt with
  | zero => cases h
  | succ fuel ih =>
    rw [coldCandidate] at h
    split_ifs at h with htaken
    · exact ih h
    · rw [← Option.some.inj h]
      exact fun hmem => htaken (List.contains_iff_mem.2 hmem)

theorem coldCandidate_ok {n : ℕ} (hlow : attempt ≤ n) (hhigh : n < attempt + fuel)
    (hfresh : uuid5 (coldName salt identity n) ∉ taken) :
    ∃ candidate, coldCandidate uuid5 salt taken identity fuel attempt = some candidate := by
  induction fuel generalizing attempt with
  | zero => omega
  | succ fuel ih =>
    rw [coldCandidate]
    split_ifs with htaken
    · have hne : attempt ≠ n := by
        intro heq
        rw [heq] at htaken
        exact hfresh (List.contains_iff_mem.1 htaken)
      exact ih (by omega) (by omega)
    · exact ⟨_, rfl⟩

/-- more attempts change nothing -/
theorem coldCandidate_mono (hfuel : fuel ≤ fuel')
    (h : coldCandidate uuid5 salt taken identity fuel attempt = some candidate) :
    coldCandidate uuid5 salt taken identity fuel' attempt = some candidate := by
  induction fuel generalizing fuel' attempt with
  | zero => cases h
  | succ fuel ih =>
    obtain ⟨fuel', rfl⟩ := Nat.exists_eq_add_of_le' (Nat.one_le_of_lt hfuel)
    rw [coldCandidate] at h ⊢
    split_ifs at h ⊢ with htaken
    · exact ih (Nat.le_of_succ_le_succ hfuel) h
    · exact h

/-- the names the loop of one identity may give to `uuid5`: no more attempts than there are taken identities -/
def coldInputs (salt : String) (observations : List ObservedEvent) : Set String :=
  {name | ∃ identity ∈ corpusIdentities observations, ∃ attempt ≤ 2 * (corpusIdentities observations).length,
    name = coldName salt identity attempt}

/-- **The collision loop ends**: a `uuid5` that is injective on its inputs has a new identity among the attempts. -/
theorem coldCandidate_fresh (huuid5 : Set.InjOn uuid5 (coldInputs salt observations))
    (hidentity : identity ∈ corpusIdentities observations)
    (htaken : taken.length ≤ 2 * (corpusIdentities observations).length) (hfuel : taken.length < fuel) :
    ∃ candidate, coldCandidate uuid5 salt taken identity fuel 0 = some candidate ∧ candidate ∉ taken := by
  have hattempts : Set.InjOn (fun n => uuid5 (coldName salt identity n)) (Set.Iic taken.length) := by
    intro m hm n hn heq
    exact coldName_injective salt identity
      (huuid5 ⟨identity, hidentity, m, hm.trans htaken, rfl⟩ ⟨identity, hidentity, n, hn.trans htaken, rfl⟩ heq)
  obtain ⟨n, hn, hfresh⟩ := FreshNames.exists_fresh hattempts
  obtain ⟨candidate, hcandidate⟩ := coldCandidate_ok (Nat.zero_le n) (by omega : n < 0 + fuel) hfresh
  exact ⟨candidate, hcandidate, coldCandidate_some hcandidate⟩

/-! ## The mapping -/

/-- the identities so far have new names, each its own -/
structure Cold (identities done : List String) (mapping : Dict String String) : Prop where
  keys : mapping.keys = done
  values : mapping.values.Nodup
  outside : ∀ m ∈ mapping.values, m ∉ identities

/-- **The mapping** names every identity, injectively and outside of the identities. -/
theorem coldMapping_ok (huuid5 : Set.InjOn uuid5 (coldInputs salt observations))
    (hfuel : 2 * (corpusIdentities observations).length < fuel) :
    ∃ mapping, coldMapping uuid5 salt fuel observations = .ok mapping ∧
      Cold (corpusIdentities observations) (sortedSet (corpusIdentities observations)) mapping := by
  have hsmall : (sortedSet (corpusIdentities observations)).length ≤ (corpusIdentities observations).length := by
    rw [sortedSet, (List.perm_insertionSort _ _).length_eq]
    exact (List.dedup_sublist _).length_le
  have hfold : (∃ mapping, coldMapping uuid5 salt fuel observations = .ok mapping ∧
      Cold (corpusIdentities observations) (sortedSet (corpusIdentities observations)) mapping) ∨
      ∃ e, coldMapping uuid5 salt fuel observations = .error e ∧ False := by
    refine foldlM_outcome (f := mapIdentity uuid5 salt fuel (corpusIdentities observations))
      (I := Cold (corpusIdentities observations)) ?_ ⟨rfl, List.nodup_nil, fun m hm => absurd hm List.not_mem_nil⟩
    intro done identity rest mapping hsplit hcold
    have hnew : identity ∉ mapping.keys := by
      rw [hcold.keys]
      have hnodup := sortedSet_nodup (corpusIdentities observations)
      rw [hsplit] at hnodup
      exact fun hmem => (List.nodup_append.1 hnodup).2.2 _ hmem _ List.mem_cons_self rfl
    have hlength : mapping.values.length ≤ (corpusIdentities observations).length := by
      have hdone : done.length ≤ (sortedSet (corpusIdentities observations)).length := by
        rw [hsplit, List.length_append]
        exact Nat.le_add_right _ _
      rw [Dict.values, List.length_map, ← List.length_map (f := Prod.fst)]
      exact (congrArg List.length hcold.keys).le.trans (hdone.trans hsmall)
    have hidentity : identity ∈ corpusIdentities observations := by
      rw [← mem_sortedSet, hsplit]
      exact List.mem_append_right _ List.mem_cons_self
    have htaken : (corpusIdentities observations ++ mapping.values).length ≤ 2 * (corpusIdentities observations).length := by
      rw [List.length_append]
      omega
    obtain ⟨candidate, hcandidate, hfresh⟩ := coldCandidate_fresh huuid5 hidentity htaken (htaken.trans_lt hfuel)
    rw [List.mem_append, not_or] at hfresh
    have hitems : (mapping.set identity candidate).items = mapping.items ++ [(identity, candidate)] :=
      Assoc.set_of_not_mem hnew
    have hvalues : (mapping.set identity candidate).values = mapping.values ++ [candidate] := by
      rw [Dict.values, hitems, List.map_append]
      rfl
    refine .inl ⟨mapping.set identity candidate, ?_, ?_, ?_, fun m hm => ?_⟩
    · rw [mapIdentity, hcandidate]
    · rw [Dict.keys_set, if_neg hnew, hcold.keys]
    · rw [hvalues]
      exact hcold.values.append (List.nodup_singleton _) (List.disjoint_singleton.2 hfresh.2)
    · rw [hvalues, List.mem_append, List.mem_singleton] at hm
      rcases hm with hm | rfl
      · exact hcold.outside m hm
      · exact hfresh.1
  rcases hfold with ⟨mapping, hmapping, hcold⟩ | ⟨_, _, hfalse⟩
  · exact ⟨mapping, hmapping, hcold⟩
  · exact hfalse.elim

theorem coldMapping_mono (hfuel : fuel ≤ fuel') (h : coldMapping uuid5 salt fuel observations = .ok mapping) :
    coldMapping uuid5 salt fuel' observations = .ok mapping := by
  refine foldlM_ok_mono (fun done identity next hnext => ?_) h
  rw [mapIdentity] at hnext ⊢
  cases hcandidate : coldCandidate uuid5 salt (corpusIdentities observations ++ done.values) identity fuel 0 with
  | none =>
    rw [hcandidate] at hnext
    cases hnext
  | some candidate =>
    rw [hcandidate] at hnext
    rw [coldCandidate_mono hfuel hcandidate]
    exact hnext

/-- the mapping as a renaming -/
def coldNames (mapping : Dict String String) (n : String) : String := mapping.getD n n

theorem Cold.get? {identities : List String} {mapping : Dict String String}
    (h : Cold identities (sortedSet identities) mapping) {n : String} (hn : n ∈ identities) :
    mapping.get? n = some (coldNames mapping n) := by
  cases hget : mapping.get? n with
  | none =>
    refine absurd ?_ (Dict.get?_eq_none.1 hget)
    rw [h.keys]
    exact mem_sortedSet.2 hn
  | some m => rw [coldNames, Dict.getD, hget, Option.getD_some]

theorem Cold.names {identities : List String} (h : Cold identities (sortedSet identities) mapping) :
    Set.InjOn (coldNames mapping) {n | n ∈ identities} ∧ ∀ n ∈ identities, coldNames mapping n ∉ identities := by
  refine ⟨fun n hn m hm heq => ?_, fun n hn => ?_⟩
  · have hn' := Dict.get?_eq_some.1 (h.get? hn)
    have hm' := Dict.get?_eq_some.1 (h.get? hm)
    rw [heq] at hn'
    exact congrArg Prod.fst (List.inj_on_of_nodup_map h.values hn' hm' rfl)
  · exact h.outside _ (List.mem_map.2 ⟨_, Dict.get?_eq_some.1 (h.get? hn), rfl⟩)

/-! ## The observations -/

/-- an observation under the mapping -/
def coldRow (mapping : Dict String String) (row : ObservedEvent) : ObservedEvent :=
  { row with
    actorId := coldNames mapping row.actorId
    counterpartyId := coldNames mapping row.counterpartyId
    optionalRefs := Dict.ofList
      ((sortBy Prod.fst row.optionalRefs.items).map fun p => (p.1, coldNames mapping p.2)) }

theorem renamed_coldRow (mapping : Dict String String) (row : ObservedEvent) :
    row.Renamed (coldNames mapping) (coldRow mapping row) :=
  row.renamed_ofList _ (sortBy_perm _ _)

theorem mem_names {n : String} : n ∈ CausalFeatureState.names observations ↔ n ∈ corpusIdentities observations := by
  rw [corpusIdentities, List.mem_flatMap]
  refine exists_congr fun row => and_congr_right fun _ => ?_
  rw [List.mem_cons, List.mem_cons]

/-- every identity of the corpus is in the mapping -/
theorem remapped_coldRow (h : Cold (corpusIdentities observations) (sortedSet (corpusIdentities observations)) mapping)
    {row : ObservedEvent} (hrow : row ∈ observations) : remapped mapping row = .ok (coldRow mapping row) := by
  have hmapped : ∀ n, n = row.actorId ∨ n = row.counterpartyId ∨ n ∈ row.optionalRefs.values →
      mapped mapping n = .ok (coldNames mapping n) := by
    intro n hn
    rw [mapped, h.get? (mem_names.1 ⟨row, hrow, hn⟩)]
  have hrefs : ((sortBy Prod.fst row.optionalRefs.items).mapM fun p => do
      let candidate ← mapped mapping p.2
      pure (p.1, candidate)) =
      .ok ((sortBy Prod.fst row.optionalRefs.items).map fun p => (p.1, coldNames mapping p.2)) := by
    refine (mapM_congr_mem fun p hp => ?_).trans List.mapM_pure
    have hvalue : p.2 ∈ row.optionalRefs.values := List.mem_map_of_mem ((sortBy_perm _ _).mem_iff.1 hp)
    rw [hmapped p.2 (.inr (.inr hvalue))]
    rfl
  rw [remapped, hmapped _ (.inl rfl), hmapped _ (.inr (.inl rfl))]
  dsimp only [except_ok_bind]
  rw [hrefs]
  rfl

theorem coldIdRemap_ok {corpus : FrozenCorpus}
    (hmapping : coldMapping uuid5 salt fuel corpus.observations = .ok mapping)
    (h : Cold (corpusIdentities corpus.observations) (sortedSet (corpusIdentities corpus.observations)) mapping) :
    coldIdRemap uuid5 salt fuel corpus = .ok { corpus with observations := corpus.observations.map (coldRow mapping) } := by
  have hrows : corpus.observations.mapM (remapped mapping) = .ok (corpus.observations.map (coldRow mapping)) :=
    (mapM_congr_mem fun row hrow => remapped_coldRow h hrow).trans List.mapM_pure
  rw [coldIdRemap, hmapping, except_ok_bind, hrows]
  rfl

variable {F : Type} [FeatureMath F] {catalog : FeatureCatalog}

/-- **Features do not depend on names**: under any injective renaming of the actor ids, the counterparty ids and the values
of the optional references, every decision has the values and the sources it had. The cold identities are such a renaming:
where `uuid5` is injective on its inputs the loop ends, every identity has a name of its own, and no name is an identity. -/
theorem features_under_names {events : List ObservedEvent} (h : CausalFeatureState.EventSet events) {ρ : String → String}
    {g : ObservedEvent → ObservedEvent} (hρ : Set.InjOn ρ (CausalFeatureState.names events))
    (hg : ∀ e ∈ events, e.Renamed ρ (g e)) {corpus : FrozenCorpus} (hcorpus : CausalFeatureState.EventSet corpus.observations)
    (huuid5 : Set.InjOn uuid5 (coldInputs salt corpus.observations)) :
    CausalFeatureState.buildFeatureMatrix (F := F) catalog (events.map g) =
      CausalFeatureState.buildFeatureMatrix catalog events ∧
    ∃ mapping corpus',
      (∀ fuel, 2 * (corpusIdentities corpus.observations).length < fuel →
        coldMapping uuid5 salt fuel corpus.observations = .ok mapping ∧ coldIdRemap uuid5 salt fuel corpus = .ok corpus') ∧
      (∀ n ∈ CausalFeatureState.names corpus.observations, mapping.get? n = some (coldNames mapping n) ∧
        coldNames mapping n ∉ CausalFeatureState.names corpus.observations) ∧
      Set.InjOn (coldNames mapping) (CausalFeatureState.names corpus.observations) ∧
      CausalFeatureState.buildFeatureMatrix (F := F) catalog corpus'.observations =
        CausalFeatureState.buildFeatureMatrix catalog corpus.observations := by
  obtain ⟨mapping, hmapping, hcold⟩ := coldMapping_ok huuid5 (Nat.lt_succ_self _)
  have hinj : Set.InjOn (coldNames mapping) (CausalFeatureState.names corpus.observations) :=
    fun n hn m hm heq => hcold.names.1 (mem_names.1 hn) (mem_names.1 hm) heq
  refine ⟨CausalFeatureState.buildFeatureMatrix_renamed h hρ hg, mapping,
    { corpus with observations := corpus.observations.map (coldRow mapping) }, fun fuel hfuel => ?_, fun n hn => ?_, hinj, ?_⟩
  · have hmore := coldMapping_mono (Nat.succ_le_of_lt hfuel) hmapping
    exact ⟨hmore, coldIdRemap_ok hmore hcold⟩
  · refine ⟨hcold.get? (mem_names.1 hn), fun hmem => ?_⟩
    exact hcold.names.2 n (mem_names.1 hn) (mem_names.1 hmem)
  · exact CausalFeatureState.buildFeatureMatrix_renamed hcorpus hinj fun row _ => renamed_coldRow mapping row

/-! ## Two transfers -/

namespace Sample

/-- `uuid5` on the two names of the transfers' identities, and injective -/
def coldUuid5 (name : String) : String :=
  Equiv.swap "apar:salt:b" "e3b3dc54-0260-5966-a969-c1d7f7dc99a4"
    (Equiv.swap "apar:salt:a" "6a2b2123-20fe-500d-8fb2-38028f7659a3" name)

theorem coldUuid5_injective : Function.Injective coldUuid5 := (Equiv.injective _).comp (Equiv.injective _)

def transfers : FrozenCorpus := ⟨CausalFeatureState.Sample.two, [], ⟨"profile", [], [], 2, 0⟩⟩

/-- the two identities exchanged -/
def exchanged (n : String) : String := Equiv.swap "a" "b" n

end Sample

open Sample CausalFeatureState.Sample in
theorem features_under_names_two :
    @CausalFeatureState.buildFeatureMatrix ℚ FeatureContext.Sample.exactMath monitor
        (two.map (ObservedEvent.rename exchanged)) =
      @CausalFeatureState.buildFeatureMatrix ℚ FeatureContext.Sample.exactMath monitor two ∧
    ∃ mapping corpus',
      (∀ fuel, 2 * (corpusIdentities transfers.observations).length < fuel →
        coldMapping coldUuid5 "salt" fuel transfers.observations = .ok mapping ∧
          coldIdRemap coldUuid5 "salt" fuel transfers = .ok corpus') ∧
      (∀ n ∈ CausalFeatureState.names transfers.observations, mapping.get? n = some (coldNames mapping n) ∧
        coldNames mapping n ∉ CausalFeatureState.names transfers.observations) ∧
      Set.InjOn (coldNames mapping) (CausalFeatureState.names transfers.observations) ∧
      @CausalFeatureState.buildFeatureMatrix ℚ FeatureContext.Sample.exactMath monitor corpus'.observations =
        @CausalFeatureState.buildFeatureMatrix ℚ FeatureContext.Sample.exactMath monitor transfers.observations :=
  @features_under_names coldUuid5 "salt" ℚ FeatureContext.Sample.exactMath monitor two two_set exchanged
    (ObservedEvent.rename exchanged) (Equiv.injective _).injOn (fun e _ => e.renamed_rename _) transfers two_set
    coldUuid5_injective.injOn

end Regimes

end Apar
