import Stratisd.Engine.Bookkeeping
import Stratisd.Liminal.DeviceSetSpec
import Stratisd.Pool.Assembly

/-! What becomes of the pools whose devices are found at start-up. The name of a pool is checked
against a table that stays empty, so that two pools may come up with one name. Only then is a
pool lost. -/

namespace Stratisd.Liminal.LiminalDevices

open Run Run.Stateful Engine Pool DeviceSet List

/-! ### One pool -/

theorem gather_cases (s : DeviceSet) (infos : List DeviceInfo) :
    (∀ t, s.addAll infos = .ok t → gather s infos = .ok t) ∧
      ∀ bag, s.addAll infos = .err bag → ∃ bag', gather s infos = .err bag' := by
  induction infos generalizing s with
  | nil => simp [addAll, gather]
  | cons info infos ih =>
    cases h : s.processInfoAdd info with
    | ok t =>
      simp only [addAll, gather, h, Outcome.ok_bind]
      exact ih t
    | err bag => simp [addAll, gather, h]
    | panic => simp [addAll, gather, h]

/-- The maps are by the pools that the devices belong to, and the pools are those of the maps. -/
structure AllDevices.Grouped (all : AllDevices) : Prop where
  nodup : all.poolUuids.Nodup
  pools : ∀ u, u ∈ all.poolUuids ↔ u ∈ all.luksDevices ∨ u ∈ all.stratisDevices
  luks : ∀ u infos, all.luksDevices.lookup u = some infos →
    ∀ i ∈ infos, i.info.identifiers.poolUuid = u
  stratis : ∀ u infos, all.stratisDevices.lookup u = some infos →
    ∀ i ∈ infos, i.identifiers.poolUuid = u

theorem AllDevices.Grouped.infos_pool {all : AllDevices} (h : all.Grouped) (u : PoolUuid) :
    ∀ i ∈ all.infos u, i.stratisIdentifiers.poolUuid = u := by
  intro i hi
  simp only [AllDevices.infos, mem_reverse, mem_append, mem_map] at hi
  rcases hi with ⟨j, hj, rfl⟩ | ⟨j, hj, rfl⟩
  · cases hl : all.stratisDevices.lookup u with
    | none => simp [hl] at hj
    | some infos => exact h.stratis u infos hl j (by simpa [hl] using hj)
  · cases hl : all.luksDevices.lookup u with
    | none => simp [hl] at hj
    | some infos => exact h.luks u infos hl j (by simpa [hl] using hj)

/-- The devices found of a pool are opened and go together. -/
def Opens (all : AllDevices) (u : PoolUuid) (opened : List (DevUuid × LStratisInfo)) : Prop :=
  ∃ s, DeviceSet.new.addAll (all.infos u) = .ok s ∧ s.asOpenedSet = some opened

/-- The devices found of a pool are opened and go together, and the pool with its saved name is
made of them. -/
def Ready (overflowChecks : Bool) (env : SetupEnv) (all : AllDevices) (u : PoolUuid)
    (name : String) (pool : StratPool) : Prop :=
  ∃ opened, Opens all u opened ∧ ∃ devs time metadata datadevs cachedevs,
    SetsUp overflowChecks env u opened name pool devs time metadata datadevs cachedevs

/-- Setting up the pool does not stop. -/
def Ends (overflowChecks : Bool) (env : SetupEnv) (all : AllDevices) (u : PoolUuid) : Prop :=
  ∀ opened, Opens all u opened → setupPool overflowChecks env Table.default u opened ≠ .panic

variable {overflowChecks : Bool} {env : SetupEnv} {all : AllDevices} {u : PoolUuid}
  {l : LiminalDevices}

theorem ready_iff {name : String} {pool : StratPool} :
    Ready overflowChecks env all u name pool ↔ ∃ opened, Opens all u opened ∧
      setupPool overflowChecks env Table.default u opened = .ok (name, pool) :=
  exists_congr fun _ => and_congr_right fun _ => by
    rw [setupPool_eq_ok]
    exact (and_iff_right rfl).symm

theorem Opens.unique {opened opened' : List (DevUuid × LStratisInfo)} (h : Opens all u opened)
    (h' : Opens all u opened') : opened = opened' := by
  obtain ⟨s, hs, ho⟩ := h
  obtain ⟨s', hs', ho'⟩ := h'
  rw [hs] at hs'
  cases hs'
  rw [ho] at ho'
  exact Option.some.inj ho'

theorem Ready.unique {name name' : String} {pool pool' : StratPool}
    (h : Ready overflowChecks env all u name pool)
    (h' : Ready overflowChecks env all u name' pool') : name = name' ∧ pool = pool' := by
  obtain ⟨opened, hopened, hup⟩ := ready_iff.mp h
  obtain ⟨opened', hopened', hup'⟩ := ready_iff.mp h'
  rw [← hopened.unique hopened', hup] at hup'
  simpa using hup'

/-- A pool that is in no place comes up if it is ready, and is put into one place if not. -/
theorem setupFound_cases (hg : all.Grouped) (he : Ends overflowChecks env all u)
    (hu : Unknown Table.default l u) :
    (∃ p, Ready overflowChecks env all u p.1 p.2 ∧
        setupFound overflowChecks env all u l = (l, .ok (some p))) ∨
      (∀ name pool, ¬ Ready overflowChecks env all u name pool) ∧
        ((∃ bag, setupFound overflowChecks env all u l = (l.insertHopeless u bag, .ok none)) ∨
          ∃ s, setupFound overflowChecks env all u l = (l.insertErrored u s, .ok none)) := by
  unfold setupFound
  rw [if_neg (by simp [hu.2.2])]
  rcases addAll_new (hg.infos_pool u) with ⟨s, hs, -, -⟩ | ⟨⟨bag, hbag⟩, -⟩
  · rw [(gather_cases _ _).1 s hs]
    simp only
    rcases trySetupPool_cases overflowChecks env hu s with
      ⟨opened, p, ho, hp, hr⟩ | ⟨hnot, hr⟩ | ⟨opened, ho, hp, -⟩
    · exact .inl ⟨p, ready_iff.mpr ⟨opened, ⟨s, hs, ho⟩, hp⟩, hr⟩
    · refine .inr ⟨fun name pool hready => ?_, hr.imp (fun h => ⟨_, h⟩) fun h => ⟨_, h⟩⟩
      obtain ⟨opened, ⟨s', hs', ho⟩, hp⟩ := ready_iff.mp hready
      rw [hs] at hs'
      cases hs'
      exact hnot opened (name, pool) ho hp
    · exact absurd hp (he opened ⟨s, hs, ho⟩)
  · obtain ⟨bag', hbag'⟩ := (gather_cases _ _).2 bag hbag
    rw [hbag']
    refine .inr ⟨?_, .inl ⟨bag', rfl⟩⟩
    rintro name pool ⟨opened, ⟨s, hs, -⟩, -⟩
    rw [hbag] at hs
    cases hs

/-! ### All pools -/

/-- The pool is in one of the two places for devices that are in no pool. -/
def Filed (l : LiminalDevices) (u : PoolUuid) : Prop :=
  (l.erroredPoolDevices.lookup u).isSome ∧ l.hopelessDeviceSets.lookup u = none ∨
    l.erroredPoolDevices.lookup u = none ∧ (l.hopelessDeviceSets.lookup u).isSome

def Unfiled (l : LiminalDevices) (u : PoolUuid) : Prop :=
  l.erroredPoolDevices.lookup u = none ∧ l.hopelessDeviceSets.lookup u = none

/-- What is known after some pools have been tried: those that are ready are up, and the others
are filed. -/
structure Sorted (overflowChecks : Bool) (env : PoolUuid → SetupEnv) (all : AllDevices)
    (l l' : LiminalDevices) (us : List PoolUuid) (up : List (String × PoolUuid × StratPool)) :
    Prop where
  up_iff : ∀ name u pool, (name, u, pool) ∈ up ↔
    u ∈ us ∧ Ready overflowChecks (env u) all u name pool
  nodup : (up.map (·.2.1)).Nodup
  filed : ∀ u ∈ us, (∀ name pool, ¬ Ready overflowChecks (env u) all u name pool) → l'.Filed u
  unfiled : ∀ u ∈ us, ∀ name pool, Ready overflowChecks (env u) all u name pool → l'.Unfiled u
  others : ∀ u, u ∉ us → l'.erroredPoolDevices.lookup u = l.erroredPoolDevices.lookup u ∧
    l'.hopelessDeviceSets.lookup u = l.hopelessDeviceSets.lookup u

section Sorted

variable {env : PoolUuid → SetupEnv} {us : List PoolUuid} {l' l₁ : LiminalDevices}
  {up : List (String × PoolUuid × StratPool)}

theorem Sorted.cons_up (h : Sorted overflowChecks env all l l' us up) (hu : u ∉ us)
    (hl : l.Unfiled u) {p : String × StratPool} (hp : Ready overflowChecks (env u) all u p.1 p.2) :
    Sorted overflowChecks env all l l' (u :: us) ((p.1, u, p.2) :: up) where
  up_iff := by
    intro name v pool
    simp only [mem_cons, h.up_iff, Prod.mk.injEq]
    constructor
    · rintro (⟨rfl, rfl, rfl⟩ | ⟨hv, hr⟩)
      · exact ⟨.inl rfl, hp⟩
      · exact ⟨.inr hv, hr⟩
    · rintro ⟨rfl | hv, hr⟩
      · obtain ⟨rfl, rfl⟩ := hr.unique hp
        exact .inl ⟨rfl, rfl, rfl⟩
      · exact .inr ⟨hv, hr⟩
  nodup := by
    refine nodup_cons.mpr ⟨fun hm => ?_, h.nodup⟩
    obtain ⟨⟨name, v, pool⟩, hm, hv⟩ := mem_map.mp hm
    have hvu : v = u := hv
    exact hu (hvu ▸ ((h.up_iff name v pool).mp hm).1)
  filed := by
    intro v hv hnot
    rcases mem_cons.mp hv with rfl | hv
    · exact absurd hp (hnot _ _)
    · exact h.filed v hv hnot
  unfiled := by
    intro v hv name pool hr
    rcases mem_cons.mp hv with rfl | hv
    · obtain ⟨h₁, h₂⟩ := h.others v hu
      exact ⟨h₁.trans hl.1, h₂.trans hl.2⟩
    · exact h.unfiled v hv name pool hr
  others v hv := h.others v fun hm => hv (mem_cons_of_mem _ hm)

theorem Sorted.cons_filed (h : Sorted overflowChecks env all l₁ l' us up) (hu : u ∉ us)
    (hsame : ∀ v, v ≠ u → l₁.erroredPoolDevices.lookup v = l.erroredPoolDevices.lookup v ∧
      l₁.hopelessDeviceSets.lookup v = l.hopelessDeviceSets.lookup v) (hl : l₁.Filed u)
    (hnot : ∀ name pool, ¬ Ready overflowChecks (env u) all u name pool) :
    Sorted overflowChecks env all l l' (u :: us) up where
  up_iff := by
    intro name v pool
    rw [h.up_iff, mem_cons]
    constructor
    · rintro ⟨hv, hr⟩
      exact ⟨.inr hv, hr⟩
    · rintro ⟨rfl | hv, hr⟩
      · exact absurd hr (hnot _ _)
      · exact ⟨hv, hr⟩
  nodup := h.nodup
  filed := by
    intro v hv hnot'
    rcases mem_cons.mp hv with rfl | hv
    · obtain ⟨h₁, h₂⟩ := h.others v hu
      unfold Filed
      rw [h₁, h₂]
      exact hl
    · exact h.filed v hv hnot'
  unfiled := by
    intro v hv name pool hr
    rcases mem_cons.mp hv with rfl | hv
    · exact absurd hr (hnot _ _)
    · exact h.unfiled v hv name pool hr
  others := by
    intro v hv
    obtain ⟨hvu, hvus⟩ := not_or.mp (mem_cons.not.mp hv)
    obtain ⟨h₁, h₂⟩ := h.others v hvus
    obtain ⟨h₃, h₄⟩ := hsame v hvu
    exact ⟨h₁.trans h₃, h₂.trans h₄⟩

end Sorted

theorem setupPools_sorted {env : PoolUuid → SetupEnv} {us : List PoolUuid} (hg : all.Grouped)
    (he : ∀ u ∈ us, Ends overflowChecks (env u) all u) (hn : us.Nodup)
    (hl : ∀ u ∈ us, l.Unfiled u) :
    ∃ l' up, setupPools overflowChecks env all us l = (l', .ok up) ∧
      Sorted overflowChecks env all l l' us up := by
  induction us generalizing l with
  | nil => exact ⟨l, [], rfl, by simp, by simp, by simp, by simp, fun _ _ => ⟨rfl, rfl⟩⟩
  | cons u us ih =>
    obtain ⟨hun, hus⟩ := nodup_cons.mp hn
    have hu : Unknown Table.default l u := ⟨rfl, hl u mem_cons_self⟩
    -- whatever becomes of the first pool, nothing is filed under the others
    have hrest : ∀ l₁ : LiminalDevices, (∀ v, v ≠ u →
        l₁.erroredPoolDevices.lookup v = l.erroredPoolDevices.lookup v ∧
          l₁.hopelessDeviceSets.lookup v = l.hopelessDeviceSets.lookup v) →
        ∃ l' up, setupPools overflowChecks env all us l₁ = (l', .ok up) ∧
          Sorted overflowChecks env all l₁ l' us up := by
      intro l₁ hsame
      refine ih (fun v hv => he v (mem_cons_of_mem _ hv)) hus fun v hv => ?_
      obtain ⟨h₁, h₂⟩ := hsame v fun hvu => hun (hvu ▸ hv)
      obtain ⟨h₃, h₄⟩ := hl v (mem_cons_of_mem _ hv)
      exact ⟨h₁.trans h₃, h₂.trans h₄⟩
    rcases setupFound_cases hg (he u mem_cons_self) hu with ⟨p, hp, hr⟩ | ⟨hnot, hr⟩
    · obtain ⟨l', up, hrun, hsorted⟩ := hrest l fun _ _ => ⟨rfl, rfl⟩
      refine ⟨l', _, ?_, hsorted.cons_up hun hu.2 hp⟩
      rw [setupPools, bind_of_eq hr, bind_of_eq hrun]
      rfl
    · obtain ⟨l₁, hr₁, hsame, hfiled⟩ : ∃ l₁, setupFound overflowChecks (env u) all u l =
          (l₁, .ok none) ∧ (∀ v, v ≠ u →
            l₁.erroredPoolDevices.lookup v = l.erroredPoolDevices.lookup v ∧
              l₁.hopelessDeviceSets.lookup v = l.hopelessDeviceSets.lookup v) ∧ l₁.Filed u := by
        rcases hr with ⟨bag, hr⟩ | ⟨s, hr⟩
        · exact ⟨_, hr, fun v hv => ⟨rfl, AList.lookup_insert_ne hv⟩,
            .inr ⟨hu.2.1, by simp [insertHopeless]⟩⟩
        · exact ⟨_, hr, fun v hv => ⟨AList.lookup_insert_ne hv, rfl⟩,
            .inl ⟨by simp [insertErrored], hu.2.2⟩⟩
      obtain ⟨l', up, hrun, hsorted⟩ := hrest l₁ hsame
      refine ⟨l', up, ?_, hsorted.cons_filed hun hsame hfiled hnot⟩
      rw [setupPools, bind_of_eq hr₁, bind_of_eq hrun]
      rfl

end Stratisd.Liminal.LiminalDevices

namespace Stratisd.Engine.StratEngine

open Run Metadata Backstore Pool Liminal LiminalDevices List

/-! ### The table of the pools -/

theorem insertAll_ok {t : Table PoolUuid StratPool} (h : t.Consistent)
    (up : List (String × PoolUuid × StratPool)) :
    ∃ t', insertAll t up = .ok t' ∧ t'.Consistent ∧ ∀ u name pool,
      t'.getByUuid u = some (name, pool) →
        t.getByUuid u = some (name, pool) ∨ (name, u, pool) ∈ up := by
  induction up generalizing t with
  | nil => exact ⟨t, rfl, h, fun _ _ _ hu => .inl hu⟩
  | cons p up ih =>
    obtain ⟨t₁, displaced, ht₁, hi⟩ := h.insert_ok (ε := StratisError) p.1 p.2.1 p.2.2
    obtain ⟨t', ht', hc, hfrom⟩ := ih (hi.consistent h)
    refine ⟨t', by rw [insertAll, ht₁, Outcome.ok_bind, ht'], hc, fun u name pool hu => ?_⟩
    rcases hfrom u name pool hu with hu₁ | hu₁
    · by_cases he : u = p.2.1
      · rw [he, hi.found] at hu₁
        obtain ⟨rfl, rfl⟩ : p.1 = name ∧ p.2.2 = pool := by simpa using hu₁
        exact .inr (he ▸ mem_cons_self)
      · rw [hi.others u he] at hu₁
        split_ifs at hu₁
        exact .inl hu₁
    · exact .inr (mem_cons_of_mem _ hu₁)

/-- Pools with names of their own are all in the table. -/
theorem insertAll_of_distinct {t : Table PoolUuid StratPool} (h : t.Consistent)
    {up : List (String × PoolUuid × StratPool)} (hu : (up.map (·.2.1)).Nodup)
    (hn : (up.map (·.1)).Nodup) (hfree : ∀ p ∈ up, t.containsName p.1 = false)
    (hnew : ∀ p ∈ up, t.getByUuid p.2.1 = none) :
    ∃ t', insertAll t up = .ok t' ∧ (∀ p ∈ up, t'.getByUuid p.2.1 = some (p.1, p.2.2)) ∧
      ∀ u, u ∉ up.map (·.2.1) → t'.getByUuid u = t.getByUuid u := by
  induction up generalizing t with
  | nil => exact ⟨t, rfl, by simp, fun _ _ => rfl⟩
  | cons p up ih =>
    obtain ⟨hup, hu'⟩ := nodup_cons.mp hu
    obtain ⟨hnp, hn'⟩ := nodup_cons.mp hn
    obtain ⟨t₁, displaced, ht₁, hi⟩ := h.insert_ok (ε := StratisError) p.1 p.2.1 p.2.2
    obtain ⟨hothers, hnames⟩ := hi.of_fresh h (hfree p mem_cons_self) (hnew p mem_cons_self)
    have hfree₁ : ∀ q ∈ up, t₁.containsName q.1 = false := by
      intro q hq
      rw [Table.containsName, hnames q.1 fun he => hnp (mem_map.mpr ⟨q, hq, he⟩)]
      exact hfree q (mem_cons_of_mem _ hq)
    have hnew₁ : ∀ q ∈ up, t₁.getByUuid q.2.1 = none := by
      intro q hq
      rw [hothers q.2.1 fun he => hup (mem_map.mpr ⟨q, hq, he⟩)]
      exact hnew q (mem_cons_of_mem _ hq)
    obtain ⟨t', ht', hfound, hsame⟩ := ih (hi.consistent h) hu' hn' hfree₁ hnew₁
    refine ⟨t', by rw [insertAll, ht₁, Outcome.ok_bind, ht'], ?_, fun u hnot => ?_⟩
    · intro q hq
      rcases mem_cons.mp hq with rfl | hq
      · rw [hsame _ hup, hi.found]
      · exact hfound q hq
    · obtain ⟨hne, hnot'⟩ := not_or.mp (mem_cons.not.mp hnot)
      rw [hsame u hnot', hothers u hne]

/-! ### Start-up -/

/-- The pool is in exactly one of the three places. -/
def InOnePlace (e : StratEngine) (u : PoolUuid) : Prop :=
  (e.pools.getByUuid u).isSome ∧ e.liminalDevices.Unfiled u ∨
    e.pools.getByUuid u = none ∧ e.liminalDevices.Filed u

/-- No pool that has been found is lost at start-up, and every pool that is ready is up under its
name, if and only if no two of the pools that are ready have the same name. -/
theorem initialize_keeps_pools_iff {overflowChecks : Bool} {io : InitEnv} {all : AllDevices}
    (hverify : io.verifyBinaries = .ok ()) (hfind : io.findAll = .ok all) (hfs : io.keyFs = .ok ())
    (hg : all.Grouped) (he : ∀ u ∈ all.poolUuids, Ends overflowChecks (io.setup u) all u) :
    ∃ e, initializeEngine overflowChecks io = .ok e ∧
      (∀ u v name p q, e.pools.getByUuid u = some (name, p) →
        e.pools.getByUuid v = some (name, q) → u = v) ∧
      ((∀ u ∈ all.poolUuids, e.InOnePlace u) ∧
          (∀ u ∈ all.poolUuids, ∀ name pool, Ready overflowChecks (io.setup u) all u name pool →
            e.pools.getByUuid u = some (name, pool)) ↔
        ∀ u ∈ all.poolUuids, ∀ v ∈ all.poolUuids, ∀ name p q,
          Ready overflowChecks (io.setup u) all u name p →
          Ready overflowChecks (io.setup v) all v name q → u = v) := by
  obtain ⟨l', up, hrun, hsorted⟩ := setupPools_sorted (l := LiminalDevices.default) hg he hg.nodup
    fun u _ => ⟨rfl, rfl⟩
  obtain ⟨t, ht, hcons, hfrom⟩ := insertAll_ok Table.consistent_default up
  have hinit : initializeEngine overflowChecks io = .ok ⟨t, l'⟩ := by
    unfold initializeEngine
    simp [hverify, hfind, hrun, ht, hfs]
  have hready : ∀ u name pool, t.getByUuid u = some (name, pool) →
      u ∈ all.poolUuids ∧ Ready overflowChecks (io.setup u) all u name pool := by
    intro u name pool hu
    rcases hfrom u name pool hu with hu | hu
    · cases hu
    · exact (hsorted.up_iff name u pool).mp hu
  refine ⟨⟨t, l'⟩, hinit, fun u v name p q hu hv => hcons.uuid_unique hu hv, ?_, fun hdistinct => ?_⟩
  · rintro ⟨-, hup⟩ u hu v hv name p q hp hq
    exact hcons.uuid_unique (hup u hu name p hp) (hup v hv name q hq)
  · have hnames : (up.map (·.1)).Nodup := by
      rw [List.Nodup, List.pairwise_map]
      refine (List.pairwise_map.mp hsorted.nodup).imp_of_mem fun {x y} hx hy hne hname => hne ?_
      obtain ⟨hxu, hxr⟩ := (hsorted.up_iff x.1 x.2.1 x.2.2).mp hx
      obtain ⟨hyu, hyr⟩ := (hsorted.up_iff y.1 y.2.1 y.2.2).mp hy
      exact hdistinct _ hxu _ hyu x.1 x.2.2 y.2.2 hxr (hname ▸ hyr)
    obtain ⟨t', ht', hfound, -⟩ := insertAll_of_distinct Table.consistent_default hsorted.nodup hnames
      (fun _ _ => rfl) fun _ _ => rfl
    rw [ht] at ht'
    cases ht'
    have hup : ∀ u ∈ all.poolUuids, ∀ name pool,
        Ready overflowChecks (io.setup u) all u name pool → t.getByUuid u = some (name, pool) :=
      fun u hu name pool hr => hfound _ ((hsorted.up_iff name u pool).mpr ⟨hu, hr⟩)
    refine ⟨fun u hu => ?_, hup⟩
    by_cases hr : ∃ name pool, Ready overflowChecks (io.setup u) all u name pool
    · obtain ⟨name, pool, hr⟩ := hr
      exact .inl ⟨by rw [hup u hu name pool hr]; rfl, hsorted.unfiled u hu name pool hr⟩
    · push Not at hr
      refine .inr ⟨?_, hsorted.filed u hu hr⟩
      cases hg : t.getByUuid u with
      | none => rfl
      | some p => exact absurd (hready u p.1 p.2 hg).2 (hr _ _)

section

variable {overflowChecks : Bool} {io : InitEnv} {all : AllDevices} {e : StratEngine}
  (hfind : io.findAll = .ok all) (hg : all.Grouped)
  (he : ∀ u ∈ all.poolUuids, Ends overflowChecks (io.setup u) all u)
  (h : initializeEngine overflowChecks io = .ok e)

include hfind hg he h

/-- Also a start-up at which a pool is lost leaves no pool in two places. -/
theorem kept_atStart : e.Kept := by
  obtain ⟨l', up, hrun, hsorted⟩ := setupPools_sorted (l := LiminalDevices.default) hg he hg.nodup
    fun u _ => ⟨rfl, rfl⟩
  obtain ⟨t, ht, hcons, hfrom⟩ := insertAll_ok Table.consistent_default up
  obtain ⟨_, -, h⟩ := Outcome.bind_eq_ok.mp h
  rw [hfind, Outcome.ok_bind, hrun] at h
  simp only [Outcome.ok_bind, ht] at h
  obtain ⟨_, -, h⟩ := Outcome.bind_eq_ok.mp h
  obtain rfl := Outcome.ok.inj h
  have hplace : ∀ u, l'.Unfiled u ∨ t.getByUuid u = none ∧ l'.Filed u := by
    intro u
    by_cases hu : u ∈ all.poolUuids
    · by_cases hr : ∃ name pool, Ready overflowChecks (io.setup u) all u name pool
      · obtain ⟨name, pool, hr⟩ := hr
        exact .inl (hsorted.unfiled u hu name pool hr)
      · push Not at hr
        refine .inr ⟨Option.eq_none_iff_forall_ne_some.mpr fun p hp => ?_, hsorted.filed u hu hr⟩
        exact hr _ _ ((hsorted.up_iff _ _ _).mp ((hfrom u _ _ hp).resolve_left nofun)).2
    · exact .inl (hsorted.others u hu)
  refine ⟨hcons, fun u => ?_, fun u => ?_, fun u => ?_⟩
  · exact (hplace u).imp And.left And.left
  · exact (hplace u).imp And.right And.left
  · rcases hplace u with hu | ⟨-, hu | hu⟩
    · exact .inl hu.1
    · exact .inr hu.2
    · exact .inl hu.1

/-- In every state that the engine reaches from start-up, names are unique, no pool is in two
places, and what the engine does next fails no assertion and affects no other pool. -/
theorem books_kept_since_startup {inputs : List EngineInput}
    (hf : AllSteps (step overflowChecks) Fresh e inputs) :
    let e' := (run (step overflowChecks) e inputs).1
    e'.Kept ∧ ∀ i, Fresh e' i → Books overflowChecks e' i (step overflowChecks e' i) := by
  have hkept := run_state_invariant (step overflowChecks) (P := Kept)
    (fun _ _ hk hfresh => (hk.step hfresh).kept) (kept_atStart hfind hg he h) hf
  exact ⟨hkept, fun i hi => hkept.step hi⟩

end

/-! Two pools of one device each, whose metadata can be read. -/

/-- A device on which one byte of metadata has been written. -/
def writtenBda (ids : StratisIdentifiers) : BDA :=
  let bda := BDA.new ids MDADataSize.default (2 ^ 22) 0
  { bda with regions := { bda.regions with mdaHeaders := fun _ => some ⟨MDAHeader.epoch, 1, 0⟩ } }

def readable (ids : StratisIdentifiers) (metadata : PoolSave) : SetupEnv where
  readBda _ := .ok (writtenBda ids)
  crc _ := 0
  fromSlice _ := some metadata
  opens _ := true
  disk _ _ := some 0
  actualSize _ := .ok (2 ^ 22 * sectorSize)
  cryptHandle _ := .ok none
  setup := smoothSetup (.ok ())

def firstIds : StratisIdentifiers := ⟨⟨1⟩, ⟨7⟩⟩

def secondIds : StratisIdentifiers := ⟨⟨2⟩, ⟨8⟩⟩

def twoPools : AllDevices :=
  ⟨∅, AList.insert ⟨2⟩ [⟨secondIds, ⟨8, 32⟩, "/dev/sdc"⟩]
    (AList.insert ⟨1⟩ [⟨firstIds, ⟨8, 16⟩, "/dev/sdb"⟩] ∅), [⟨1⟩, ⟨2⟩]⟩

/-- The metadata that is written when a pool is made on a device. -/
def madeOn (ids : StratisIdentifiers) (number : Device) (name : String) : StratisResult PoolSave := do
  let d ← StratBlockDev.new number (writtenBda ids) [] none none
  let pool ← StratPool.initializePool true (StratPool.smoothInit [d]) name
  .ok (pool.record name)

def startUp (first second : PoolSave) : InitEnv where
  verifyBinaries := .ok ()
  findAll := .ok twoPools
  setup u := if u = ⟨1⟩ then readable firstIds first else readable secondIds second
  keyFs := .ok ()

theorem grouped_twoPools : twoPools.Grouped where
  nodup := by decide
  pools := by
    intro u
    constructor
    · intro hu
      obtain rfl | rfl : u = ⟨1⟩ ∨ u = ⟨2⟩ := by simpa [twoPools] using hu
      · decide
      · decide
    · rintro (hu | hu)
      · exact absurd hu (AList.notMem_empty u)
      · rcases AList.mem_insert _ |>.mp hu with rfl | hu
        · decide
        · rcases AList.mem_insert _ |>.mp hu with rfl | hu
          · decide
          · exact absurd hu (AList.notMem_empty u)
  luks := by
    intro u infos h
    cases h
  stratis := by
    intro u infos h i hi
    have hentry := AList.mem_lookup_iff.mp h
    have hall : ∀ e ∈ twoPools.stratisDevices.entries, ∀ i ∈ e.2, i.identifiers.poolUuid = e.1 := by
      decide
    exact hall _ hentry i hi

def upName : Outcome Destination (String × StratPool) → Option String
  | .ok p => some p.1
  | _ => none

def firstOpened : List (DevUuid × LStratisInfo) :=
  [(⟨7⟩, ⟨⟨firstIds, ⟨8, 16⟩, "/dev/sdb"⟩, none⟩)]

def secondOpened : List (DevUuid × LStratisInfo) :=
  [(⟨8⟩, ⟨⟨secondIds, ⟨8, 32⟩, "/dev/sdc"⟩, none⟩)]

theorem opens_first : Opens twoPools ⟨1⟩ firstOpened := ⟨_, rfl, rfl⟩

theorem opens_second : Opens twoPools ⟨2⟩ secondOpened := ⟨_, rfl, rfl⟩

/-- Two pools with different names are both up. -/
theorem initialize_keeps_pools_iff_two_names :
    ∃ first second e, madeOn firstIds ⟨8, 16⟩ "first" = .ok first ∧
      madeOn secondIds ⟨8, 32⟩ "second" = .ok second ∧
      initializeEngine true (startUp first second) = .ok e ∧ e.InOnePlace ⟨1⟩ ∧
      e.InOnePlace ⟨2⟩ := by
  obtain ⟨first, hfirst, second, hsecond, hup⟩ :
      ∃ first, madeOn firstIds ⟨8, 16⟩ "first" = .ok first ∧
      ∃ second, madeOn secondIds ⟨8, 32⟩ "second" = .ok second ∧
      upName (setupPool true (readable firstIds first) Table.default ⟨1⟩ firstOpened) = some
        "first" ∧
      upName (setupPool true (readable secondIds second) Table.default ⟨2⟩ secondOpened) = some
        "second" := by
    decide +kernel
  -- each of the two comes up with its own name and nothing stops
  have hone : ∀ u ∈ twoPools.poolUuids, ∃ opened, Opens twoPools u opened ∧
      upName (setupPool true ((startUp first second).setup u) Table.default u opened) =
        some (if u = ⟨1⟩ then "first" else "second") := by
    intro u hu
    obtain rfl | rfl : u = ⟨1⟩ ∨ u = ⟨2⟩ := by simpa [twoPools] using hu
    · exact ⟨firstOpened, opens_first, hup.1⟩
    · exact ⟨secondOpened, opens_second, hup.2⟩
  have hends : ∀ u ∈ twoPools.poolUuids, Ends true ((startUp first second).setup u) twoPools u := by
    intro u hu opened hopens hpanic
    obtain ⟨opened', hopens', hname⟩ := hone u hu
    rw [← hopens.unique hopens', hpanic] at hname
    cases hname
  have hnamed : ∀ u ∈ twoPools.poolUuids, ∀ name pool,
      Ready true ((startUp first second).setup u) twoPools u name pool →
        name = if u = ⟨1⟩ then "first" else "second" := by
    intro u hu name pool hready
    obtain ⟨opened, hopens, hp⟩ := ready_iff.mp hready
    obtain ⟨opened', hopens', hname⟩ := hone u hu
    rw [← hopens.unique hopens', hp] at hname
    exact Option.some.inj hname
  have hverify : (startUp first second).verifyBinaries = .ok () := rfl
  obtain ⟨e, he, -, hiff⟩ := initialize_keeps_pools_iff hverify rfl rfl grouped_twoPools hends
  have hall := (hiff.mpr fun u hu v hv name p q hp hq => ?_).1
  · exact ⟨first, second, e, hfirst, hsecond, he, hall ⟨1⟩ (by decide), hall ⟨2⟩ (by decide)⟩
  · have hnames := (hnamed u hu name p hp).symm.trans (hnamed v hv name q hq)
    obtain rfl | rfl : u = ⟨1⟩ ∨ u = ⟨2⟩ := by simpa [twoPools] using hu
    · obtain rfl | rfl : v = ⟨1⟩ ∨ v = ⟨2⟩ := by simpa [twoPools] using hv
      · rfl
      · exact absurd hnames (by decide)
    · obtain rfl | rfl : v = ⟨1⟩ ∨ v = ⟨2⟩ := by simpa [twoPools] using hv
      · exact absurd hnames (by decide)
      · rfl

/-- Two pools come up with one name, and the first is lost. -/
theorem initialize_evicts_same_name :
    ∃ first second e, madeOn firstIds ⟨8, 16⟩ "pool" = .ok first ∧
      madeOn secondIds ⟨8, 32⟩ "pool" = .ok second ∧
      initializeEngine true (startUp first second) = .ok e ∧
      e.pools.getByUuid ⟨1⟩ = none ∧ e.liminalDevices.Unfiled ⟨1⟩ := by
  obtain ⟨first, hfirst, second, hsecond, e, he, hlost⟩ :
      ∃ first, madeOn firstIds ⟨8, 16⟩ "pool" = .ok first ∧
      ∃ second, madeOn secondIds ⟨8, 32⟩ "pool" = .ok second ∧
      ∃ e, initializeEngine true (startUp first second) = .ok e ∧ (e.pools.getByUuid ⟨1⟩).isNone ∧
      (e.liminalDevices.erroredPoolDevices.lookup ⟨1⟩).isNone ∧
      (e.liminalDevices.hopelessDeviceSets.lookup ⟨1⟩).isNone := by
    decide +kernel
  simp only [Option.isNone_iff_eq_none] at hlost
  exact ⟨first, second, e, hfirst, hsecond, he, hlost.1, hlost.2⟩

/-- The second of two pools with one name is renamed. -/
theorem books_kept_since_startup_same_name :
    ∃ first second e, initializeEngine true (startUp first second) = .ok e ∧
      (e.pools.getByUuid ⟨1⟩).isNone ∧
      (run (step true) e [.rename ⟨.ok (), .ok ()⟩ ⟨2⟩ "other"]).1.Kept := by
  obtain ⟨first, -, second, -, hup, hup', e, he, hlost⟩ :
      ∃ first, madeOn firstIds ⟨8, 16⟩ "pool" = .ok first ∧
      ∃ second, madeOn secondIds ⟨8, 32⟩ "pool" = .ok second ∧
      upName (setupPool true (readable firstIds first) Table.default ⟨1⟩ firstOpened) ≠ none ∧
      upName (setupPool true (readable secondIds second) Table.default ⟨2⟩ secondOpened) ≠ none ∧
      ∃ e, initializeEngine true (startUp first second) = .ok e ∧ (e.pools.getByUuid ⟨1⟩).isNone := by
    decide +kernel
  have hends : ∀ u ∈ twoPools.poolUuids, Ends true ((startUp first second).setup u) twoPools u := by
    intro u hu opened hopens hpanic
    obtain rfl | rfl : u = ⟨1⟩ ∨ u = ⟨2⟩ := by simpa [twoPools] using hu
    · exact hup (congrArg upName (opens_first.unique hopens ▸ hpanic))
    · exact hup' (congrArg upName (opens_second.unique hopens ▸ hpanic))
  have hsteps : AllSteps (step true) Fresh e [.rename ⟨.ok (), .ok ()⟩ ⟨2⟩ "other"] :=
    ⟨trivial, trivial⟩
  exact ⟨first, second, e, he, hlost,
    (books_kept_since_startup rfl grouped_twoPools hends he hsteps).1⟩

end Stratisd.Engine.StratEngine
