import AioVpn.Coroutine.Trace
import AioVpn.Login.ServerList

/-!
# Which servers are shown

After `loadServers` the grid shows the ranking, if it is not empty, and no longer the list that was
fetched (`allUiItems_loadServers`).  A ranking made for the list has the servers that answered, so
those that did not are missing unless none did; a ranking from the cache has the servers of some
earlier list that answered then.  `shows_fetched_servers_iff` says when no server of the fetched
list is lost and none is added.
-/

namespace AioVpn

/-! ## The servers of a ranking -/

namespace SmartRoutingService

section Answers

variable {latency : ℕ → ℕ} {servers : List WgServerDto}

/-- The ranking has the scores of the servers that answered. -/
theorem rankServers_perm (latency : ℕ → ℕ) (servers : List WgServerDto) :
    (rankServers latency servers).Perm
      ((servers.zipIdx.map fun x => score x.1 (latency x.2)).filter fun s => s.success) :=
  List.perm_insertionSort _ _

variable (latency servers) in
theorem forall_success_iff (P : Bool → Prop) :
    (∀ x ∈ servers.zipIdx.map fun x => score x.1 (latency x.2), P x.success) ↔
      ∀ i < servers.length, P (decide (latency i < longMax)) := by
  rw [List.forall_mem_map]
  constructor
  · intro h i hi
    exact h (servers[i], i) (List.mk_mem_zipIdx_iff_getElem?.mpr (List.getElem?_eq_getElem hi))
  · rintro h ⟨server, i⟩ hx
    exact h i (List.getElem?_eq_some_iff.mp (List.mk_mem_zipIdx_iff_getElem?.mp hx)).1

/-- The ranking is empty if no server answered. -/
theorem rankServers_eq_nil_iff :
    rankServers latency servers = [] ↔ ∀ i < servers.length, ¬ latency i < longMax := by
  have hperm := rankServers_perm latency servers
  have hnone := forall_success_iff latency servers fun b => ¬ b = true
  simp only [decide_eq_true_eq] at hnone
  rw [← hnone, ← List.filter_eq_nil_iff]
  constructor
  · intro h
    rw [h] at hperm
    exact hperm.symm.eq_nil
  · intro h
    rw [h] at hperm
    exact hperm.eq_nil

/-- **The ranking has all servers** if all of them answered. -/
theorem perm_rankServers_iff :
    ((rankServers latency servers).map ServerScore.server).Perm servers ↔
      ∀ i < servers.length, latency i < longMax := by
  set scores := servers.zipIdx.map fun x => score x.1 (latency x.2) with hscores
  have hperm : (rankServers latency servers).Perm (scores.filter fun s => s.success) :=
    rankServers_perm latency servers
  have hservers : scores.map ServerScore.server = servers := by
    rw [hscores, List.map_map]
    exact List.zipIdx_map_fst 0 servers
  have hall := forall_success_iff latency servers fun b => b = true
  simp only [decide_eq_true_eq] at hall
  rw [← hall]
  constructor
  · intro h
    have hlength : (scores.filter fun s => s.success).length = scores.length := by
      rw [← hperm.length_eq, ← List.length_map ServerScore.server, h.length_eq, ← hservers,
        List.length_map]
    exact List.length_filter_eq_length_iff.mp hlength
  · intro h
    rw [List.filter_eq_self.mpr h] at hperm
    have hmap := hperm.map ServerScore.server
    rwa [hservers] at hmap

end Answers

end SmartRoutingService

namespace ServerList

open Coroutine

/-! ## The run -/

/-- What is left in `allUiItems` for a list and a ranking. -/
def loadedItems (servers : List WgServerDto) (ranked : List ServerScore) : List ServerUiItem :=
  if ranked.isEmpty then fetchedItems servers else rankedItems ranked

theorem servers_loadedItems (servers : List WgServerDto) (ranked : List ServerScore) :
    (loadedItems servers ranked).map ServerUiItem.server =
      if ranked.isEmpty then servers else ranked.map ServerScore.server := by
  rw [loadedItems]
  split
  · rw [fetchedItems, List.map_map]
    exact List.map_id servers
  · rw [rankedItems, List.map_map]
    rfl

/-- The ranking that is used; the items stay. -/
theorem run_rankings (servers : List WgServerDto) (env : ℕ → HomeEnv) (s : ServerListScreen) :
    ∃ s', (rankings servers : ListProg HomeExn _).runAlone perform env s =
        (.ok (HomeActivity.rankingUsed s.rankingCache (env 0).now (env 1).latency servers), s') ∧
      s'.allUiItems = s.allUiItems := by
  have hcached : perform .cachedRankings (env 0) s = (s.rankingCache.cached (env 0).now, s) := rfl
  simp only [rankings, step, Prog.perform, Prog.bind_def, Prog.op_bind, Prog.pure_bind,
    Prog.runAlone, hcached, HomeActivity.rankingUsed]
  cases s.rankingCache.cached (env 0).now with
  | none => exact ⟨_, rfl, rfl⟩
  | some ranked => exact ⟨s, rfl, rfl⟩

/-- **What `loadServers` leaves**, if the list can be fetched. -/
theorem allUiItems_loadServers {env : ℕ → HomeEnv} {servers : List WgServerDto}
    (hservers : HomeActivity.repoServers (env 0) = .ok servers) (s : ServerListScreen) :
    (loadServers.runAlone perform env s).2.allUiItems =
      loadedItems servers
        (HomeActivity.rankingUsed s.rankingCache (env 2).now (env 3).latency servers) := by
  obtain ⟨s', hrankings, hitems⟩ := run_rankings servers (fun n => env (n + 2))
    (showItems (fetchedItems servers) s)
  have hfetched : perform .servers (env 0) s = (.ok servers, s) := by
    rw [perform, hservers]
  have hrun : loadServers.runAlone perform env s =
      Prog.runAlone perform (fun n => env (n + 2))
        (Prog.tryCatch
          (Prog.bind (rankings servers) fun ranked =>
            if ranked.isEmpty then .pure () else step (.showRanked ranked))
          fun e => step (.toast e))
        (showItems (fetchedItems servers) s) := by
    simp only [loadServers, step, Prog.perform, Prog.bind_def, Prog.op_bind, Prog.pure_bind,
      Prog.op_tryCatch, Prog.runAlone, hfetched, Prog.ofExcept]
    rfl
  rw [hrun, Prog.run_bind_tryCatch_of_ok perform _ _ hrankings, loadedItems]
  have hcache : (showItems (fetchedItems servers) s).rankingCache = s.rankingCache := rfl
  rw [hcache]
  split
  · exact hitems
  · rfl

/-! ## The list under `ALL` -/

/-- **Exactly these servers** are shown, each of them once. -/
structure ShowsExactly (servers : List WgServerDto) (items : List ServerUiItem) : Prop where
  once : (items.map ServerUiItem.server).Nodup
  same : ∀ server, server ∈ items.map ServerUiItem.server ↔ server ∈ servers

theorem showsExactly_iff {servers : List WgServerDto} (hids : (servers.map WgServerDto.id).Nodup)
    {items : List ServerUiItem} :
    ShowsExactly servers items ↔ (items.map ServerUiItem.server).Perm servers := by
  have hservers : servers.Nodup := List.Nodup.of_map _ hids
  constructor
  · rintro ⟨honce, hsame⟩
    exact (List.perm_ext_iff_of_nodup honce hservers).mpr hsame
  · intro h
    exact ⟨h.nodup_iff.mpr hservers, fun server => h.mem_iff⟩

theorem uiItems_tap_all (s : ServerListScreen) : (tap .all s).uiItems = s.allUiItems := rfl

/-- A run of `loadServers` that gets this list, with this cache at this time and these latencies,
shows exactly the servers of the list under `ALL`. -/
def ShowsFetchedServers (servers : List WgServerDto) (cache : ServerRankingCache) (now : ℤ)
    (latency : ℕ → ℕ) : Prop :=
  ∀ (env : ℕ → HomeEnv) (s : ServerListScreen),
    HomeActivity.repoServers (env 0) = .ok servers → (env 2).now = now →
    (env 3).latency = latency → s.rankingCache = cache →
    ShowsExactly servers (tap .all (loadServers.runAlone perform env s).2).uiItems

/-- The ranking that is used is empty, or has the servers of the list. -/
theorem showsFetchedServers_iff {servers : List WgServerDto}
    (hids : (servers.map WgServerDto.id).Nodup) {cache : ServerRankingCache} {now : ℤ}
    {latency : ℕ → ℕ} :
    ShowsFetchedServers servers cache now latency ↔
      HomeActivity.rankingUsed cache now latency servers = [] ∨
        ((HomeActivity.rankingUsed cache now latency servers).map ServerScore.server).Perm
          servers := by
  set ranked := HomeActivity.rankingUsed cache now latency servers with hranked
  have hshown : ShowsExactly servers (loadedItems servers ranked) ↔
      ranked = [] ∨ (ranked.map ServerScore.server).Perm servers := by
    rw [showsExactly_iff hids, servers_loadedItems]
    split
    · rename_i hempty
      exact iff_of_true (List.Perm.refl _) (Or.inl (List.isEmpty_iff.mp hempty))
    · rename_i hne
      exact (or_iff_right fun h => hne (List.isEmpty_iff.mpr h)).symm
  rw [← hshown]
  constructor
  · intro h
    have hrun := h (fun _ => HomeActivity.serving servers now latency) { rankingCache := cache }
      (HomeActivity.repoServers_serving servers now latency) rfl rfl rfl
    rwa [uiItems_tap_all, allUiItems_loadServers
      (HomeActivity.repoServers_serving servers now latency)] at hrun
  · intro h env s hservers hnow hlatency hcache
    rwa [uiItems_tap_all, allUiItems_loadServers hservers, hnow, hlatency, hcache]

/-- **When no server is lost**: if the ranking is made for the list, all servers have to answer, or
none of them; if it comes from the cache, it has to have the servers of the list, or none at all. -/
theorem shows_fetched_servers_iff {servers : List WgServerDto}
    (hids : (servers.map WgServerDto.id).Nodup) (cache : ServerRankingCache) (now : ℤ)
    (latency : ℕ → ℕ) :
    ShowsFetchedServers servers cache now latency ↔
      (cache.cached now = none →
        (∀ i < servers.length, latency i < SmartRoutingService.longMax) ∨
          ∀ i < servers.length, ¬ latency i < SmartRoutingService.longMax) ∧
      ∀ ranked, cache.cached now = some ranked →
        ranked = [] ∨ (ranked.map ServerScore.server).Perm servers := by
  rw [showsFetchedServers_iff hids, HomeActivity.rankingUsed]
  cases cache.cached now with
  | none =>
    rw [Option.getD_none, SmartRoutingService.rankServers_eq_nil_iff,
      SmartRoutingService.perm_rankServers_iff, or_comm]
    exact ⟨fun h => ⟨fun _ => h, fun _ h => absurd h (by simp)⟩, fun h => h.1 rfl⟩
  | some ranked =>
    rw [Option.getD_some]
    refine ⟨fun h => ⟨fun h => absurd h (by simp), fun ranked' h' => ?_⟩, fun h => h.2 ranked rfl⟩
    obtain rfl := Option.some.inj h'
    exact h

/-- Both servers answer and nothing is cached. -/
theorem both_servers_shown :
    ShowsFetchedServers [HomeActivity.nearServer, HomeActivity.farServer] {} 0 fun _ => 10 :=
  (shows_fetched_servers_iff (by decide) _ _ _).mpr
    ⟨fun _ => Or.inl fun _ _ => by decide,
      fun _ h => absurd h (by simp [ServerRankingCache.cached])⟩

/-- **Servers are lost**: one that does not answer its probe is not shown, and 60 seconds later the
old ranking is shown to a user whose list is another one. -/
theorem servers_lost :
    (tap .all (loadServers.runAlone perform
        (fun _ => HomeActivity.serving [HomeActivity.nearServer, HomeActivity.farServer] 120000
          fun i => if i = 0 then 10 else SmartRoutingService.longMax) {}).2).uiItems.map
            ServerUiItem.server = [HomeActivity.nearServer] ∧
      (tap .all (loadServers.runAlone perform
        (fun _ => HomeActivity.serving [HomeActivity.farServer] 180000 fun _ => 10)
        { rankingCache := ServerRankingCache.set 120000
            (SmartRoutingService.rankServers (fun _ => 10)
              [HomeActivity.nearServer]) }).2).uiItems.map
            ServerUiItem.server = [HomeActivity.nearServer] := by
  decide +kernel

end ServerList
end AioVpn
