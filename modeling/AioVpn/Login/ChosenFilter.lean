import AioVpn.Login.ServerList

/-!
# The filter that is chosen and the servers that are shown

A tap on a chip applies the filter, but `loadServers` shows what it has loaded without asking which
filter is chosen.  So after a tap, a list or a ranking that arrives is shown as a whole
(`favorites_show_all`), until the next tap.

What arrives is in the order of its pings: the placeholders are all alike, and a ranking is sorted
by its latencies.  So it makes no difference if the filter would have let all of it through, that is
under `ALL` and, if there are few enough servers, under the others (`filtered_eq_self_iff`).  The
grid matches the filter all along a run exactly if this is so whenever something arrives
(`shown_matches_filter_iff`).
-/

namespace AioVpn
namespace ServerList

open Coroutine

/-- **The grid matches the filter.** -/
def Matches (s : ServerListScreen) : Prop := s.uiItems = filtered s.currentFilter s.allUiItems

/-! ## What a filter lets through -/

/-- The filter lets a list of this length through. -/
def letsThrough : ServerFilter → ℕ → Bool
  | .all, _ => true
  | .fastest, n => n ≤ 9
  | .recommended, n => n ≤ 6
  | .favorites, n => n = 0

theorem filtered_eq_self_iff {items : List ServerUiItem} (hsorted : sortedByPing items = items)
    (filter : ServerFilter) :
    filtered filter items = items ↔ letsThrough filter items.length = true := by
  cases filter with
  | all => exact iff_of_true rfl rfl
  | fastest => rw [filtered, hsorted, List.take_eq_self_iff, letsThrough, decide_eq_true_eq]
  | recommended => rw [filtered, hsorted, List.take_eq_self_iff, letsThrough, decide_eq_true_eq]
  | favorites =>
    rw [filtered, letsThrough, decide_eq_true_eq, List.length_eq_zero_iff]
    exact eq_comm

theorem matches_showItems_iff {items : List ServerUiItem} (hsorted : sortedByPing items = items)
    (s : ServerListScreen) :
    Matches (showItems items s) ↔ letsThrough s.currentFilter items.length = true := by
  rw [← filtered_eq_self_iff hsorted]
  exact eq_comm

theorem matches_tap (filter : ServerFilter) (s : ServerListScreen) : Matches (tap filter s) := rfl

/-! ## Rankings in order -/

/-- The fastest first. -/
def InOrder (ranked : List ServerScore) : Prop :=
  ranked.Pairwise fun a b => a.latencyMs ≤ b.latencyMs

/-- The ranking in the cache is in order. -/
def CacheInOrder (s : ServerListScreen) : Prop :=
  ∀ ranked ∈ s.rankingCache.rankedServers, InOrder ranked

/-- A ranking that is stored or shown is in order. -/
def OpInOrder : ListOp → Prop
  | .setRankings ranked => InOrder ranked
  | .showRanked ranked => InOrder ranked
  | _ => True

theorem inOrder_of_mem_set {now : ℤ} {ranked ranked' : List ServerScore} (h : InOrder ranked)
    (h' : ranked' ∈ (ServerRankingCache.set now ranked).rankedServers) : InOrder ranked' := by
  obtain rfl := Option.some.inj h'
  exact h

theorem CacheInOrder.cached {s : ServerListScreen} (h : CacheInOrder s) {now : ℤ}
    {ranked : List ServerScore} (hcached : s.rankingCache.cached now = some ranked) :
    InOrder ranked := by
  rw [ServerRankingCache.cached] at hcached
  split at hcached
  · exact h ranked hcached
  · exact absurd hcached (by simp)

theorem CacheInOrder.perform {s : ServerListScreen} (h : CacheInOrder s) {o : ListOp}
    (ho : OpInOrder o) (env : HomeEnv) : CacheInOrder (perform o env s).2 := by
  cases o with
  | setRankings ranked => exact fun _ => inOrder_of_mem_set ho
  | _ => exact h

theorem CacheInOrder.after {s : ServerListScreen} (h : CacheInOrder s) (e : Event) :
    CacheInOrder (after e s) := by
  cases e with
  | tap filter => exact h
  | rankedElsewhere now latency servers =>
    exact fun _ => inOrder_of_mem_set (SmartRoutingService.pairwise_rankServers latency servers)
  | cleared => exact fun _ h => absurd h (by simp [ServerList.after])

/-- The rest of the process keeps the cache in order, and `loadServers` stores and shows rankings
in order. -/
def contract : Contract ListOp ListOp.Res HomeEnv ServerListScreen where
  perform := perform
  assume := fun _ _ _ => True
  assert := fun o _ => OpInOrder o
  rely := fun s t => CacheInOrder s → CacheInOrder t
  rely_refl := fun _ h => h
  rely_trans := fun h h' hs => h' (h hs)

section Body

variable {ε α : Type} {Q : α → ServerListScreen → Prop} {E : ε → ServerListScreen → Prop}
  {s : ServerListScreen}

theorem wp_step {o : ListOp} (ho : OpInOrder o) (hs : CacheInOrder s) {k : o.Res → ListProg ε α}
    (hk : ∀ env s₁, CacheInOrder s₁ → CacheInOrder (perform o env s₁).2 →
      contract.wp Q E (k (perform o env s₁).1) (perform o env s₁).2) :
    contract.wp Q E ((step o).bind k) s := by
  intro s₁ hs₁
  have hcache := hs₁ hs
  exact ⟨ho, fun env _ => hk env s₁ hcache (hcache.perform ho env)⟩

theorem wp_rankings (servers : List WgServerDto) (hs : CacheInOrder s) :
    contract.wp (fun ranked s' => InOrder ranked ∧ CacheInOrder s') E
      (rankings servers : ListProg ε _) s := by
  have hcheck : OpInOrder .cachedRankings := trivial
  have hrank : OpInOrder (.rankServers servers) := trivial
  refine wp_step hcheck hs fun env s₁ hs₁ _ => ?_
  cases hcached : (perform .cachedRankings env s₁).1 with
  | some ranked => exact ⟨hs₁.cached hcached, hs₁⟩
  | none =>
    refine wp_step hrank hs₁ fun env s₂ hs₂ _ => ?_
    have hranked : OpInOrder (.setRankings (perform (.rankServers servers) env s₂).1) :=
      SmartRoutingService.pairwise_rankServers env.latency servers
    exact wp_step hranked hs₂ fun env s₃ _ hs₄ => ⟨hranked, hs₄⟩

/-- **`loadServers`** keeps the rankings in order. -/
theorem wp_loadServers (hs : CacheInOrder s) :
    contract.wp (fun j _ => j = none) (fun _ _ => True) (system.body .loadServers) s := by
  have hfetch : OpInOrder .servers := trivial
  have hreport : ∀ e, OpInOrder (.toast e) := fun _ => trivial
  refine (Contract.wp_bind _ _ _ _ _).mpr ((Contract.wp_tryCatch _ _ _ _ _).mpr ?_)
  refine wp_step hfetch hs fun env s₁ _ hs₁ => ?_
  cases (perform .servers env s₁).1 with
  | error e => exact wp_step (hreport e) hs₁ fun env s₂ _ _ => rfl
  | ok servers =>
    have hshow : OpInOrder (.showServers servers) := trivial
    refine wp_step hshow hs₁ fun env s₂ _ hs₂ => ?_
    refine Contract.wp_seq (wp_rankings servers hs₂) (fun _ _ h => h) ?_
    rintro ranked s₃ ⟨hranked, hs₃⟩
    split
    · rfl
    · have hshow : OpInOrder (.showRanked ranked) := hranked
      exact wp_step hshow hs₃ fun env s₄ _ _ => rfl

end Body

/-! ## Arrivals -/

/-- The number of items that a step shows. -/
def arriving : ListOp → Option ℕ
  | .showServers servers => some servers.length
  | .showRanked ranked => some ranked.length
  | _ => none

/-- Whenever a list or a ranking arrives, the chosen filter lets all of it through. -/
def fitting (c : ListConf) : Act Event HomeEnv → Bool
  | .event _ => true
  | .step i _ =>
      match c.threads[i]? with
      | some ⟨_, .op o _⟩ => (arriving o).all (letsThrough c.shared.currentFilter)
      | _ => true

/-- A step that shows nothing keeps the match. -/
theorem matches_perform_iff {s : ServerListScreen} (h : Matches s) {o : ListOp} (ho : OpInOrder o)
    (env : HomeEnv) :
    Matches (perform o env s).2 ↔ (arriving o).all (letsThrough s.currentFilter) = true := by
  cases o with
  | showServers servers =>
    rw [arriving, Option.all_some]
    have hiff := matches_showItems_iff (sortedByPing_fetchedItems servers) s
    rwa [fetchedItems, List.length_map] at hiff
  | showRanked ranked =>
    rw [arriving, Option.all_some]
    have hiff := matches_showItems_iff (sortedByPing_rankedItems ho) s
    rwa [rankedItems, List.length_map] at hiff
  | _ => exact iff_of_true h rfl

/-- An event applies the filter, or leaves the grid alone. -/
theorem Matches.after {s : ServerListScreen} (h : Matches s) (e : Event) : Matches (after e s) := by
  cases e with
  | tap filter => exact matches_tap filter s
  | rankedElsewhere now latency servers => exact h
  | cleared => exact h

/-- **What is known in every run**: `loadServers` is the only coroutine, and meets its contract. -/
def Running (c : ListConf) : Prop :=
  CacheInOrder c.shared ∧ ∃ p : ListProg Empty (Option Job), c.threads = [⟨.loadServers, p⟩] ∧
    contract.wp (fun j _ => j = none) (fun _ _ => True) p c.shared

theorem launched_of_wp {p : ListProg Empty (Option Job)} {s : ServerListScreen}
    (h : contract.wp (fun j _ => j = none) (fun _ _ => True) p s) : p.launched = none := by
  cases p with
  | pure j => exact h
  | throw e => rfl
  | op o k => rfl

theorem Running.start {cache : ServerRankingCache}
    (h : ∀ ranked ∈ cache.rankedServers, InOrder ranked) : Running (start cache) :=
  ⟨h, _, rfl, wp_loadServers h⟩

theorem Running.next_event {c c' : ListConf} (hc : Running c) {e : Event}
    (h : system.next c (.event e) = some c') : c'.shared = after e c.shared ∧ Running c' := by
  obtain ⟨hcache, p, hthreads, hwp⟩ := hc
  obtain ⟨s', j, hhandle, rfl⟩ := system.next_event h
  obtain ⟨rfl, rfl⟩ := Prod.mk.inj (Option.some.inj hhandle)
  have hcache' := hcache.after e
  refine ⟨rfl, hcache', p, ?_, ?_⟩
  · rw [hthreads]
    rfl
  · cases p with
    | pure j => exact hwp
    | throw e => trivial
    | op o k => exact Contract.wp_of_rely rfl hwp fun _ => hcache'

theorem Running.next_step {c c' : ListConf} (hc : Running c) {i : ℕ} {env : HomeEnv}
    (h : system.next c (.step i env) = some c') :
    ∃ (o : ListOp) (k : o.Res → ListProg Empty (Option Job)), OpInOrder o ∧
      c.threads[i]? = some ⟨.loadServers, .op o k⟩ ∧ c'.shared = (perform o env c.shared).2 ∧
      Running c' := by
  obtain ⟨hcache, p, hthreads, hwp⟩ := hc
  obtain ⟨j, o, k, hi, rfl⟩ := system.next_step h
  have hmem := List.mem_of_getElem? hi
  rw [hthreads, List.mem_singleton] at hmem
  obtain ⟨rfl, rfl⟩ := Thread.mk.inj hmem
  have ho : OpInOrder o := Contract.assert_of_wp hwp
  have henv : contract.assume o env c.shared := trivial
  have hwp' : contract.wp (fun j _ => j = none) (fun _ _ => True) (k (perform o env c.shared).1)
      (perform o env c.shared).2 := Contract.wp_step hwp henv
  have hi₀ : i = 0 := by
    have hlt := (List.getElem?_eq_some_iff.mp hi).1
    rw [hthreads, List.length_singleton] at hlt
    omega
  refine ⟨o, k, ho, hi, rfl, hcache.perform ho env, _, ?_, hwp'⟩
  show c.threads.set i ⟨.loadServers, k (perform o env c.shared).1⟩ ++
    system.launch (k (perform o env c.shared).1).launched = _
  rw [launched_of_wp hwp', hi₀, hthreads]
  rfl

/-! ## All along a run -/

/-- **When the grid matches the filter all along**: whenever a list or a ranking arrives, the chosen
filter lets all of it through. -/
theorem shown_matches_filter_iff {cache : ServerRankingCache}
    (hcache : ∀ ranked ∈ cache.rankedServers, ∃ latency servers,
      ranked = SmartRoutingService.rankServers latency servers)
    (acts : List (Act Event HomeEnv)) :
    system.Along (fun c => Matches c.shared) (start cache) acts ↔
      system.each fitting (start cache) acts = true := by
  have hstart : Running (start cache) := by
    refine Running.start fun ranked hranked => ?_
    obtain ⟨latency, servers, rfl⟩ := hcache ranked hranked
    exact SmartRoutingService.pairwise_rankServers latency servers
  have hmatches : Matches (start cache).shared := rfl
  refine System.along_iff_each (I := Running) ?_ ?_ hstart hmatches acts
  · intro c c' a hc hnext
    cases a with
    | event e => exact (hc.next_event hnext).2
    | step i env =>
      obtain ⟨o, k, -, -, -, hc'⟩ := hc.next_step hnext
      exact hc'
  · intro c c' a hc hmatches hnext
    cases a with
    | event e =>
      rw [(hc.next_event hnext).1]
      exact iff_of_true (hmatches.after e) rfl
    | step i env =>
      obtain ⟨o, k, ho, hi, hshared, -⟩ := hc.next_step hnext
      have hfitting : fitting c (.step i env) =
          (arriving o).all (letsThrough c.shared.currentFilter) := by
        rw [fitting, hi]
      rw [hshared, hfitting]
      exact matches_perform_iff hmatches ho env

/-- Two servers are loaded while `FASTEST` is chosen, after `FAVORITES` and before `RECOMMENDED`. -/
theorem two_servers_match_filter :
    system.Along (fun c => Matches c.shared) (start {})
      ([.event (.tap .favorites), .event (.tap .fastest)] ++
        List.replicate 6 (.step 0 (HomeActivity.serving
          [HomeActivity.nearServer, HomeActivity.farServer] 0 fun i => 20 - i)) ++
        [.event (.tap .recommended)]) :=
  (shown_matches_filter_iff (fun _ h => absurd h (by simp)) _).mpr (by decide +kernel)

/-- **Favourites show everything**: the chip is tapped before the list arrives. -/
theorem favorites_show_all :
    (system.exec (fun _ _ => true) (start {})
      ([.event (.tap .favorites)] ++ List.replicate 2 (.step 0 (HomeActivity.serving
        [HomeActivity.nearServer] 0 fun _ => 20)))).map
      (fun c => (c.shared.currentFilter, c.shared.uiItems,
        filtered c.shared.currentFilter c.shared.allUiItems)) =
    some (.favorites, [⟨HomeActivity.nearServer, jstr "-- ms"⟩], []) := by
  decide +kernel

end ServerList
end AioVpn
