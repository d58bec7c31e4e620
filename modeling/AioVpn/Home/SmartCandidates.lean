import AioVpn.Home.HomeActivity

/-!
# The candidates of Smart Auto

Which servers `connectSmartAuto` tries, and in which order.  The list of servers is fetched, but
what is tried is the ranking, and a ranking that is less than two minutes old is taken from the
cache whatever list it was made of, also when a fresh choice was asked for.

`runAlone_smartCandidates` computes the candidates.  From it follow when the candidates are
servers of the list that was fetched, the best first (`tries_listed_servers_iff`), and when the
cache has no influence on a fresh choice (`fresh_choice_ignores_cache_iff`).
-/

namespace AioVpn

/-! ## The ranking -/

namespace SmartRoutingService

theorem mem_rankServers {latency : ℕ → ℕ} {servers : List WgServerDto} {x : ServerScore}
    (h : x ∈ rankServers latency servers) : x.server ∈ servers := by
  rw [rankServers, List.mem_insertionSort, List.mem_filter, List.mem_map] at h
  obtain ⟨⟨y, hy, rfl⟩, -⟩ := h
  exact List.fst_mem_of_mem_zipIdx hy

/-- **The fastest first.** -/
theorem pairwise_rankServers (latency : ℕ → ℕ) (servers : List WgServerDto) :
    (rankServers latency servers).Pairwise fun a b => a.latencyMs ≤ b.latencyMs := by
  have htotal : Std.Total fun a b : ServerScore => a.latencyMs ≤ b.latencyMs :=
    ⟨fun a b => le_total a.latencyMs b.latencyMs⟩
  have htrans : IsTrans ServerScore fun a b => a.latencyMs ≤ b.latencyMs :=
    ⟨fun a b c => le_trans⟩
  exact List.pairwise_insertionSort _ _

theorem nodup_ids_rankServers {latency : ℕ → ℕ} {servers : List WgServerDto}
    (h : (servers.map WgServerDto.id).Nodup) :
    ((rankServers latency servers).map fun x => x.server.id).Nodup := by
  have hperm := List.perm_insertionSort (fun a b : ServerScore => a.latencyMs ≤ b.latencyMs)
    ((servers.zipIdx.map fun x => score x.1 (latency x.2)).filter fun s => s.success)
  rw [rankServers, (hperm.map _).nodup_iff]
  refine List.Nodup.sublist (List.Sublist.map _ List.filter_sublist) ?_
  have hids : (servers.zipIdx.map fun x => score x.1 (latency x.2)).map (fun x => x.server.id) =
      servers.map WgServerDto.id := by
    conv_rhs => rw [← List.zipIdx_map_fst 0 servers, List.map_map]
    rw [List.map_map]
    rfl
  rw [hids]
  exact h

end SmartRoutingService

namespace HomeActivity

open Coroutine

/-! ## The first of the ranking -/

theorem take_filter_of_forall {α : Type} {p : α → Bool} {l : List α} {k : ℕ}
    (h : ∀ x ∈ l.take k, p x = true) : (l.filter p).take k = l.take k := by
  induction l generalizing k with
  | nil => rfl
  | cons a l ih =>
    cases k with
    | zero => rfl
    | succ k =>
      rw [List.take_succ_cons] at h
      rw [List.filter_cons_of_pos (h a List.mem_cons_self), List.take_succ_cons,
        List.take_succ_cons, ih fun x hx => h x (List.mem_cons_of_mem _ hx)]

/-- Where the first ids are different, `distinctBy` does nothing to them. -/
theorem take_distinctById {l : List WgServerDto} {k : ℕ}
    (h : ((l.take k).map WgServerDto.id).Nodup) : (distinctById l).take k = l.take k := by
  induction l generalizing k with
  | nil => rfl
  | cons a l ih =>
    cases k with
    | zero => rfl
    | succ k =>
      rw [List.take_succ_cons, List.map_cons, List.nodup_cons] at h
      have hrest := ih h.2
      rw [distinctById, List.take_succ_cons, List.take_succ_cons, take_filter_of_forall, hrest]
      intro x hx
      rw [hrest] at hx
      rw [decide_eq_true_eq]
      exact fun hid => h.1 (hid ▸ List.mem_map_of_mem hx)

/-- Without one of them, the first three are among the first four. -/
theorem take_filter_ne {l : List ServerScore} {id : ℤ}
    (h : ((l.take 4).map fun x => x.server.id).Nodup) :
    (l.filter fun x => x.server.id ≠ id).take 3 =
      ((l.take 4).filter fun x => x.server.id ≠ id).take 3 := by
  have hsplit : l.filter (fun x => x.server.id ≠ id) =
      (l.take 4).filter (fun x => x.server.id ≠ id) ++
        (l.drop 4).filter fun x => x.server.id ≠ id := by
    rw [← List.filter_append, List.take_append_drop]
  rcases le_or_gt l.length 4 with hlen | hlen
  · rw [List.take_of_length_le hlen]
  · have hone : ((l.take 4).filter fun x => x.server.id = id).length ≤ 1 := by
      have hcount := List.nodup_iff_count_le_one.mp h id
      rw [List.count, List.countP_map, List.countP_eq_length_filter] at hcount
      exact hcount
    have hparts := List.length_eq_length_filter_add (l := l.take 4) fun x => x.server.id = id
    rw [List.length_take, min_eq_left hlen.le] at hparts
    have hthree : 3 ≤ ((l.take 4).filter fun x => x.server.id ≠ id).length := by
      simp only [decide_not]
      omega
    rw [hsplit, List.take_append_of_le_length hthree]

/-! ## What is chosen -/

/-- `orderedCandidates`, given the record of the last good server. -/
def candidatesOf (forceFresh : Bool) (servers : List WgServerDto) (ranked : List ServerScore)
    (lastGood : Option LastGoodServer) : List WgServerDto :=
  if forceFresh then freshCandidates ranked else usualCandidates servers ranked lastGood

/-- The server that goes in front: the last good one, where it is in the list. -/
def inFront (forceFresh : Bool) (servers : List WgServerDto)
    (lastGood : Option LastGoodServer) : Option WgServerDto :=
  if forceFresh then none
  else lastGood.bind fun g => servers.find? fun s => s.id = g.serverId

/-- **Good candidates**: at most four, none twice, all of them in the list, and behind the server
in front the others in the order of their latencies. -/
structure WellChosen (servers : List WgServerDto) (ranked : List ServerScore)
    (front : Option WgServerDto) (candidates : List WgServerDto) : Prop where
  length_le : candidates.length ≤ 4
  nodup : (candidates.map WgServerDto.id).Nodup
  listed : ∀ c ∈ candidates, c ∈ servers
  best_first : ∃ scores : List ServerScore,
    candidates = front.toList ++ scores.map ServerScore.server ∧ (∀ x ∈ scores, x ∈ ranked) ∧
      scores.Pairwise fun a b => a.latencyMs ≤ b.latencyMs

section Chosen

variable {servers : List WgServerDto} {ranked : List ServerScore}

/-- The first four of the ranking, where they are different servers, as they are used without a
server in front. -/
theorem take_freshCandidates (hids : ((ranked.take 4).map fun x => x.server.id).Nodup) :
    freshCandidates ranked = (ranked.take 4).map ServerScore.server := by
  rw [freshCandidates, take_distinctById, List.map_take]
  rw [← List.map_take, List.map_map]
  exact hids

/-- The candidates with a server in front. -/
theorem take_distinctById_cons (hids : ((ranked.take 4).map fun x => x.server.id).Nodup)
    (front : WgServerDto) :
    (distinctById (front :: (ranked.map ServerScore.server).filter fun s => s.id ≠ front.id)).take
        4 =
      front :: (((ranked.take 4).filter fun x => x.server.id ≠ front.id).take 3).map
        ServerScore.server := by
  set scores := ((ranked.take 4).filter fun x => x.server.id ≠ front.id).take 3 with hscores
  set others := (ranked.map ServerScore.server).filter fun s => s.id ≠ front.id with hothers
  have htake : others.take 3 = scores.map ServerScore.server := by
    rw [hothers, hscores, List.filter_map, ← List.map_take, ← take_filter_ne hids]
    rfl
  have hdistinct : (distinctById others).take 3 = scores.map ServerScore.server := by
    rw [take_distinctById, htake]
    rw [htake, List.map_map]
    exact hids.sublist (((List.take_sublist 3 _).trans List.filter_sublist).map _)
  have hfront : ∀ s ∈ (distinctById others).take 3, decide (s.id ≠ front.id) = true := by
    intro s hs
    rw [hdistinct, ← htake] at hs
    exact (List.mem_filter.mp (List.mem_of_mem_take hs)).2
  rw [distinctById, List.take_succ_cons, take_filter_of_forall hfront, hdistinct]

/-- The server in front, and behind it some of the first four of the ranking in their order. -/
def FromHead (ranked : List ServerScore) (front : Option WgServerDto)
    (candidates : List WgServerDto) : Prop :=
  ∃ scores : List ServerScore, scores.Sublist (ranked.take 4) ∧
    candidates = front.toList ++ scores.map ServerScore.server ∧
    ∀ f ∈ front, scores.length ≤ 3 ∧ ∀ x ∈ scores, x.server.id ≠ f.id

theorem fromHead_take : FromHead ranked none ((ranked.take 4).map ServerScore.server) :=
  ⟨ranked.take 4, List.Sublist.refl _, rfl, fun _ h => absurd h (by simp)⟩

variable (servers) in
/-- **Where the candidates come from**, if the first four of the ranking are different servers. -/
theorem fromHead_candidatesOf (hids : ((ranked.take 4).map fun x => x.server.id).Nodup)
    (forceFresh : Bool) (lastGood : Option LastGoodServer) :
    FromHead ranked (inFront forceFresh servers lastGood)
      (candidatesOf forceFresh servers ranked lastGood) := by
  cases forceFresh with
  | true =>
    have hcandidates : candidatesOf true servers ranked lastGood = _ := take_freshCandidates hids
    rw [hcandidates]
    exact fromHead_take
  | false =>
    have htake : (ranked.map ServerScore.server).take 4 = (ranked.take 4).map ServerScore.server :=
      List.map_take.symm
    have hcandidates : candidatesOf false servers ranked lastGood =
        (buildCandidateOrder servers ranked lastGood).take 4 := rfl
    rw [hcandidates]
    cases lastGood with
    | none =>
      rw [buildCandidateOrder, htake]
      exact fromHead_take
    | some g =>
      have hfront : inFront false servers (some g) = servers.find? fun s => s.id = g.serverId := rfl
      rw [hfront, buildCandidateOrder]
      cases servers.find? fun s => s.id = g.serverId with
      | none =>
        dsimp only
        rw [htake]
        exact fromHead_take
      | some front =>
        dsimp only
        rw [take_distinctById_cons hids]
        refine ⟨_, (List.take_sublist 3 _).trans List.filter_sublist, rfl, ?_⟩
        intro f hf
        obtain rfl := Option.some.inj hf
        refine ⟨List.length_take_le 3 _, fun x hx => ?_⟩
        exact of_decide_eq_true (List.mem_filter.mp (List.mem_of_mem_take hx)).2

theorem mem_of_inFront {forceFresh : Bool} {lastGood : Option LastGoodServer} {front : WgServerDto}
    (h : inFront forceFresh servers lastGood = some front) : front ∈ servers := by
  rw [inFront] at h
  split at h
  · exact absurd h (by simp)
  · obtain ⟨g, -, hfind⟩ := Option.bind_eq_some_iff.mp h
    exact List.mem_of_find?_eq_some hfind

/-- **Good candidates** come of a ranking whose first four are different servers of the list. -/
theorem wellChosen_of_take (hlisted : ∀ x ∈ ranked.take 4, x.server ∈ servers)
    (hids : ((ranked.take 4).map fun x => x.server.id).Nodup)
    (hsorted : ranked.Pairwise fun a b => a.latencyMs ≤ b.latencyMs) (forceFresh : Bool)
    (lastGood : Option LastGoodServer) :
    WellChosen servers ranked (inFront forceFresh servers lastGood)
      (candidatesOf forceFresh servers ranked lastGood) := by
  obtain ⟨scores, hsub, hcandidates, hfront⟩ :=
    fromHead_candidatesOf servers hids forceFresh lastGood
  have hnodup : ((scores.map ServerScore.server).map WgServerDto.id).Nodup := by
    rw [List.map_map]
    exact hids.sublist (hsub.map _)
  have hscores : ∀ c ∈ scores.map ServerScore.server, c ∈ servers := by
    intro c hc
    obtain ⟨x, hx, rfl⟩ := List.mem_map.mp hc
    exact hlisted x (hsub.subset hx)
  have hmeasured : ∀ x ∈ scores, x ∈ ranked := fun x hx => List.mem_of_mem_take (hsub.subset hx)
  have hpairwise := hsorted.sublist (hsub.trans (List.take_sublist 4 _))
  cases hinFront : inFront forceFresh servers lastGood with
  | none =>
    rw [hinFront, Option.toList_none, List.nil_append] at hcandidates
    rw [hcandidates]
    refine ⟨?_, hnodup, hscores, scores, rfl, hmeasured, hpairwise⟩
    rw [List.length_map]
    exact hsub.length_le.trans (List.length_take_le 4 _)
  | some front =>
    rw [hinFront, Option.toList_some, List.singleton_append] at hcandidates
    obtain ⟨hlen, hne⟩ := hfront front hinFront
    rw [hcandidates]
    refine ⟨?_, ?_, ?_, scores, rfl, hmeasured, hpairwise⟩
    · rw [List.length_cons, List.length_map]
      omega
    · rw [List.map_cons, List.nodup_cons]
      refine ⟨fun hmem => ?_, hnodup⟩
      obtain ⟨s, hs, hid⟩ := List.mem_map.mp hmem
      obtain ⟨x, hx, rfl⟩ := List.mem_map.mp hs
      exact hne x hx hid
    · intro c hc
      rcases List.mem_cons.mp hc with rfl | hc
      · exact mem_of_inFront hinFront
      · exact hscores c hc

end Chosen

/-! ## The run -/

/-- The ranking that is used. -/
def rankingUsed (cache : ServerRankingCache) (now : ℤ) (latency : ℕ → ℕ)
    (servers : List WgServerDto) : List ServerScore :=
  (cache.cached now).getD (SmartRoutingService.rankServers latency servers)

/-- What `LastGoodServerStore.get` returns. -/
def storedLastGood (s : HomeState) : Option LastGoodServer :=
  s.lastGood.filter fun g => g.serverId ≠ -1

/-- How the choice ends, for a list and a ranking. -/
def choice (forceFresh : Bool) (servers : List WgServerDto) (ranked : List ServerScore)
    (lastGood : Option LastGoodServer) : Except HomeExn (List WgServerDto) :=
  if servers.isEmpty then .error (.illegalState (jstr "No WireGuard servers available"))
  else if ranked.isEmpty then .error (.illegalState (jstr "No reachable servers found"))
  else .ok (candidatesOf forceFresh servers ranked lastGood)

theorem choice_of_ne_nil {servers : List WgServerDto} {ranked : List ServerScore}
    (hservers : servers ≠ []) (hranked : ranked ≠ []) (forceFresh : Bool)
    (lastGood : Option LastGoodServer) :
    choice forceFresh servers ranked lastGood =
      .ok (candidatesOf forceFresh servers ranked lastGood) := by
  rw [choice, if_neg (by simpa using hservers), if_neg (by simpa using hranked)]

theorem candidates_of_choice {forceFresh : Bool} {servers : List WgServerDto}
    {ranked : List ServerScore} {lastGood : Option LastGoodServer} {candidates : List WgServerDto}
    (h : choice forceFresh servers ranked lastGood = .ok candidates) :
    candidatesOf forceFresh servers ranked lastGood = candidates := by
  rw [choice] at h
  split at h
  · exact absurd h (by simp)
  · split at h
    · exact absurd h (by simp)
    · exact Except.ok.inj h

section Run

variable {net : NetApi} {packageName : JString}

/-- The ranking is taken from the cache, or it is made and put there. -/
theorem runAlone_getOrBuildRankings {α : Type} (f : List ServerScore → HomeProg α)
    (servers : List WgServerDto) (env : ℕ → HomeEnv) (s : HomeState) :
    ((getOrBuildRankings servers).bind f).runAlone (perform net packageName) env s =
      (s.rankingCache.cached (env 0).now).elim
        ((f (SmartRoutingService.rankServers (env 1).latency servers)).runAlone
          (perform net packageName) (fun n => env (n + 3))
          { s with
            rankingCache :=
              ServerRankingCache.set (env 2).now
                (SmartRoutingService.rankServers (env 1).latency servers) })
        fun ranked => (f ranked).runAlone (perform net packageName) (fun n => env (n + 1)) s := by
  simp only [getOrBuildRankings, step, Prog.perform, Prog.bind_def, Prog.op_bind, Prog.pure_bind,
    Prog.runAlone, perform]
  cases s.rankingCache.cached (env 0).now with
  | none => rfl
  | some ranked => rfl

theorem runAlone_orderedCandidates (forceFresh : Bool) (servers : List WgServerDto)
    (ranked : List ServerScore) (env : ℕ → HomeEnv) (s : HomeState) :
    ((orderedCandidates forceFresh servers ranked).runAlone (perform net packageName) env s).1 =
      .ok (candidatesOf forceFresh servers ranked (storedLastGood s)) := by
  cases forceFresh with
  | true => rfl
  | false => rfl

/-- The list is fetched first. -/
theorem runAlone_smartCandidates_eq (env : ℕ → HomeEnv) (forceFresh : Bool) (s : HomeState) :
    (smartCandidates forceFresh).runAlone (perform net packageName) env s =
      Prog.runAlone (perform net packageName) (fun n => env (n + 1))
        ((Prog.ofExcept (repoServers (env 0)) : HomeProg _).bind fun servers =>
          if servers.isEmpty then .throw (.illegalState (jstr "No WireGuard servers available"))
          else (getOrBuildRankings servers).bind fun ranked =>
            if ranked.isEmpty then .throw (.illegalState (jstr "No reachable servers found"))
            else orderedCandidates forceFresh servers ranked) s := rfl

/-- **The candidates of a run**, for the list that was fetched. -/
theorem runAlone_smartCandidates {env : ℕ → HomeEnv} {servers : List WgServerDto}
    (hservers : repoServers (env 0) = .ok servers) (forceFresh : Bool) (s : HomeState) :
    ((smartCandidates forceFresh).runAlone (perform net packageName) env s).1 =
      choice forceFresh servers
        (rankingUsed s.rankingCache (env 1).now (env 2).latency servers) (storedLastGood s) := by
  rw [runAlone_smartCandidates_eq, hservers, Prog.ofExcept, Prog.pure_bind, choice]
  cases hempty : servers.isEmpty with
  | true => rfl
  | false =>
    rw [if_neg (by simp), if_neg (by simp), runAlone_getOrBuildRankings, rankingUsed]
    cases s.rankingCache.cached (env 1).now with
    | none =>
      rw [Option.elim_none, Option.getD_none]
      split
      · rfl
      · exact runAlone_orderedCandidates forceFresh servers _ _ _
    | some ranked =>
      rw [Option.elim_some, Option.getD_some]
      split
      · rfl
      · exact runAlone_orderedCandidates forceFresh servers _ _ _

end Run

/-- A network that answers with a list, at a given time and with given latencies. -/
def serving (servers : List WgServerDto) (now : ℤ) (latency : ℕ → ℕ) : HomeEnv where
  token := some (jstr "token")
  wgServers := some servers
  now := now
  latency := latency

theorem repoServers_serving (servers : List WgServerDto) (now : ℤ) (latency : ℕ → ℕ) :
    repoServers (serving servers now latency) = .ok servers := rfl

/-! ## Servers of the list -/

/-- The contents of the cache that calls of `getOrBuildRankings` leave, for any lists. -/
inductive LeftByCalls (net : NetApi) (packageName : JString) : ServerRankingCache → Prop where
  /-- Nothing has been stored, or `clear` was called. -/
  | cleared : LeftByCalls net packageName {}
  | called (env : ℕ → HomeEnv) (servers : List WgServerDto) (s : HomeState)
      (h : LeftByCalls net packageName s.rankingCache) :
      LeftByCalls net packageName
        ((getOrBuildRankings servers).runAlone (perform net packageName) env s).2.rankingCache

/-- A run of `connectSmartAuto` for this list, with this cache at this time, tries good
candidates, whatever is measured, whatever the last good server is and whether or not a fresh
choice was asked for. -/
def TriesListedServers (net : NetApi) (packageName : JString) (servers : List WgServerDto)
    (cache : ServerRankingCache) (now : ℤ) : Prop :=
  ∀ (env : ℕ → HomeEnv) (s : HomeState) (forceFresh : Bool) (candidates : List WgServerDto),
    repoServers (env 0) = .ok servers → (env 1).now = now → s.rankingCache = cache →
    ((smartCandidates forceFresh).runAlone (perform net packageName) env s).1 = .ok candidates →
    WellChosen servers (rankingUsed cache now (env 2).latency servers)
      (inFront forceFresh servers (storedLastGood s)) candidates

section Listed

variable {net : NetApi} {packageName : JString} {cache : ServerRankingCache}

/-- **What is in the cache**: a ranking of some list. -/
theorem LeftByCalls.ranking (h : LeftByCalls net packageName cache) :
    ∀ ranked ∈ cache.rankedServers, ∃ latency servers,
      ranked = SmartRoutingService.rankServers latency servers := by
  induction h with
  | cleared => exact fun _ h => absurd h (by simp)
  | called env servers s _ ih =>
    rw [← Prog.bind_pure (getOrBuildRankings servers), runAlone_getOrBuildRankings]
    cases s.rankingCache.cached (env 0).now with
    | none =>
      intro ranked hranked
      exact ⟨_, _, (Option.some.inj hranked).symm⟩
    | some ranked => exact ih

theorem ranking_of_cached (h : LeftByCalls net packageName cache) {now : ℤ}
    {ranked : List ServerScore} (hcached : cache.cached now = some ranked) :
    ∃ latency servers, ranked = SmartRoutingService.rankServers latency servers := by
  rw [ServerRankingCache.cached] at hcached
  split at hcached
  · exact h.ranking ranked hcached
  · exact absurd hcached (by simp)

/-- **When Smart Auto tries servers of the list**: if the cache is not used, or the first four of
the ranking in it are different servers of the list. -/
theorem tries_listed_servers_iff (hcache : LeftByCalls net packageName cache)
    {servers : List WgServerDto} (hne : servers ≠ [])
    (hids : (servers.map WgServerDto.id).Nodup) (now : ℤ) :
    TriesListedServers net packageName servers cache now ↔
      ∀ ranked, cache.cached now = some ranked →
        (∀ x ∈ ranked.take 4, x.server ∈ servers) ∧
          ((ranked.take 4).map fun x => x.server.id).Nodup := by
  constructor
  · intro h ranked hcached
    rcases eq_or_ne ranked [] with rfl | hranked
    · exact ⟨by simp, by simp⟩
    · -- a call without a record of the last good server
      have hused : rankingUsed cache now (fun _ => 0) servers = ranked := by
        rw [rankingUsed, hcached, Option.getD_some]
      have hrun : ((smartCandidates false).runAlone (perform net packageName)
          (fun _ => serving servers now fun _ => 0) { rankingCache := cache }).1 =
          choice false servers (rankingUsed cache now (fun _ => 0) servers) none :=
        runAlone_smartCandidates (repoServers_serving servers now _) false _
      rw [hused, choice_of_ne_nil hne hranked] at hrun
      have hcandidates : candidatesOf false servers ranked none =
          (ranked.take 4).map ServerScore.server := List.map_take.symm
      rw [hcandidates] at hrun
      obtain ⟨-, hnodup, hlisted, -⟩ := h _ _ _ _ (repoServers_serving servers now _) rfl rfl hrun
      rw [List.map_map] at hnodup
      exact ⟨fun x hx => hlisted _ (List.mem_map_of_mem hx), hnodup⟩
  · intro h env s forceFresh candidates hservers hnow hs hrun
    rw [runAlone_smartCandidates hservers, hs, hnow] at hrun
    rw [← candidates_of_choice hrun]
    cases hcached : cache.cached now with
    | none =>
      rw [rankingUsed, hcached, Option.getD_none]
      refine wellChosen_of_take (fun x hx => ?_) ?_
        (SmartRoutingService.pairwise_rankServers _ _) _ _
      · exact SmartRoutingService.mem_rankServers (List.mem_of_mem_take hx)
      · exact (SmartRoutingService.nodup_ids_rankServers hids).sublist
          ((List.take_sublist 4 _).map _)
    | some ranked =>
      obtain ⟨hlisted, hnodup⟩ := h ranked hcached
      obtain ⟨latency, servers', rfl⟩ := ranking_of_cached hcache hcached
      rw [rankingUsed, hcached, Option.getD_some]
      exact wellChosen_of_take hlisted hnodup (SmartRoutingService.pairwise_rankServers _ _) _ _

end Listed

/-- Two servers. -/
def nearServer : WgServerDto := ⟨1, jstr "near", jstr "192.0.2.1", none⟩

@[inherit_doc nearServer]
def farServer : WgServerDto := ⟨2, jstr "far", jstr "192.0.2.2", none⟩

/-- What a call for both of them leaves in the cache. -/
def cacheOfBoth : ServerRankingCache :=
  ((getOrBuildRankings [nearServer, farServer]).runAlone
    (perform GoBackend.noAddresses GoBackend.applicationId)
    (fun _ => serving [nearServer, farServer] 0 id) {}).2.rankingCache

/-- A minute later, with both of them in the list. -/
theorem both_servers_listed :
    TriesListedServers GoBackend.noAddresses GoBackend.applicationId [farServer, nearServer]
      cacheOfBoth 60000 := by
  refine (tries_listed_servers_iff (.called _ _ _ .cleared) (by decide) (by decide) 60000).mpr ?_
  intro ranked hranked
  have hcached : cacheOfBoth.cached 60000 =
      some [⟨nearServer, 0, true⟩, ⟨farServer, 1, true⟩] := rfl
  obtain rfl := Option.some.inj (hcached.symm.trans hranked)
  exact ⟨by decide, by decide⟩

/-- **A server that is gone**: a minute later the near one is no longer in the list, and is tried
first. -/
theorem removed_server_tried_first :
    ((smartCandidates false).runAlone (perform GoBackend.noAddresses GoBackend.applicationId)
        (fun _ => serving [farServer] 60000 id) { rankingCache := cacheOfBoth }).1 =
      .ok [nearServer, farServer] ∧ nearServer ∉ [farServer] := by
  decide

/-! ## A fresh choice -/

/-- Two runs of a fresh choice at the same time that differ in the cache only end alike. -/
def FreshChoiceIgnores (net : NetApi) (packageName : JString) (c₁ c₂ : ServerRankingCache)
    (now : ℤ) : Prop :=
  ∀ (env : ℕ → HomeEnv) (s : HomeState), (env 1).now = now →
    ((smartCandidates true).runAlone (perform net packageName) env
        { s with rankingCache := c₁ }).1 =
      ((smartCandidates true).runAlone (perform net packageName) env
        { s with rankingCache := c₂ }).1

section Fresh

variable {net : NetApi} {packageName : JString} {c₁ c₂ : ServerRankingCache} {now : ℤ}

/-- A list that cannot be fetched. -/
theorem runAlone_smartCandidates_error {env : ℕ → HomeEnv} {e : HomeExn}
    (hservers : repoServers (env 0) = .error e) (forceFresh : Bool) (s : HomeState) :
    ((smartCandidates forceFresh).runAlone (perform net packageName) env s).1 = .error e := by
  rw [runAlone_smartCandidates_eq, hservers]
  rfl

/-- A fresh choice depends on the first four different servers of the ranking. -/
theorem choice_true_congr {r₁ r₂ : List ServerScore} (h : freshCandidates r₁ = freshCandidates r₂)
    (servers : List WgServerDto) (lastGood : Option LastGoodServer) :
    choice true servers r₁ lastGood = choice true servers r₂ lastGood := by
  have hnil : ∀ r, freshCandidates r = [] ↔ r = [] := fun r =>
    ⟨fun h => by_contra fun hr => freshCandidates_ne_nil hr h, fun h => by rw [h]; rfl⟩
  have hempty : r₁.isEmpty = r₂.isEmpty := by
    rw [Bool.eq_iff_iff, List.isEmpty_iff, List.isEmpty_iff, ← hnil, ← hnil, h]
  rw [choice, choice, hempty, candidatesOf, candidatesOf, if_pos rfl, if_pos rfl, h]

/-- It can be told by the outcome. -/
theorem freshCandidates_of_choice {r₁ r₂ : List ServerScore} {servers : List WgServerDto}
    (hservers : servers ≠ []) {lastGood : Option LastGoodServer}
    (h : choice true servers r₁ lastGood = choice true servers r₂ lastGood) :
    freshCandidates r₁ = freshCandidates r₂ := by
  have hnil : choice true servers [] lastGood =
      .error (.illegalState (jstr "No reachable servers found")) := by
    rw [choice, if_neg (by simpa using hservers)]
    rfl
  rcases eq_or_ne r₁ [] with rfl | h₁ <;> rcases eq_or_ne r₂ [] with rfl | h₂
  · rfl
  · rw [hnil, choice_of_ne_nil hservers h₂] at h
    exact absurd h (by simp)
  · rw [hnil, choice_of_ne_nil hservers h₁] at h
    exact absurd h (by simp)
  · rw [choice_of_ne_nil hservers h₁, choice_of_ne_nil hservers h₂] at h
    exact Except.ok.inj h

/-- A ranking that is made can be told from one that was stored, by what is measured. -/
theorem exists_latency_ne (ranked : List ServerScore) :
    ∃ latency, freshCandidates (SmartRoutingService.rankServers latency [nearServer]) ≠
      freshCandidates ranked := by
  rcases eq_or_ne ranked [] with rfl | hranked
  · exact ⟨fun _ => 0, by decide⟩
  · refine ⟨fun _ => SmartRoutingService.longMax, fun h => freshCandidates_ne_nil hranked ?_⟩
    rw [← h]
    rfl

/-- What a fresh choice depends on, for two caches: the rankings in them, if they are used. -/
theorem freshCandidates_rankingUsed_iff :
    (∀ latency servers, servers ≠ [] → freshCandidates (rankingUsed c₁ now latency servers) =
        freshCandidates (rankingUsed c₂ now latency servers)) ↔
      (c₁.cached now).map freshCandidates = (c₂.cached now).map freshCandidates := by
  simp only [rankingUsed]
  cases c₁.cached now with
  | none =>
    cases c₂.cached now with
    | none => exact iff_of_true (fun _ _ _ => rfl) rfl
    | some r₂ =>
      obtain ⟨latency, hne⟩ := exists_latency_ne r₂
      exact iff_of_false (fun h => hne (h latency _ (by simp))) (by simp)
  | some r₁ =>
    cases c₂.cached now with
    | none =>
      obtain ⟨latency, hne⟩ := exists_latency_ne r₁
      exact iff_of_false (fun h => hne (h latency _ (by simp)).symm) (by simp)
    | some r₂ =>
      rw [Option.map_some, Option.map_some, Option.some.injEq]
      exact ⟨fun h => h (fun _ => 0) [nearServer] (by simp), fun h _ _ _ => h⟩

/-- **When the cache has no influence**: neither of the two is used, or both are and have the same
first four different servers. -/
theorem fresh_choice_ignores_cache_iff :
    FreshChoiceIgnores net packageName c₁ c₂ now ↔
      (c₁.cached now).map freshCandidates = (c₂.cached now).map freshCandidates := by
  rw [← freshCandidates_rankingUsed_iff]
  constructor
  · intro h latency servers hne
    have hserving := repoServers_serving servers now latency
    have hrun := h (fun _ => serving servers now latency) {} rfl
    rw [runAlone_smartCandidates hserving, runAlone_smartCandidates hserving] at hrun
    exact freshCandidates_of_choice hne hrun
  · intro h env s hnow
    cases hservers : repoServers (env 0) with
    | error e =>
      rw [runAlone_smartCandidates_error hservers, runAlone_smartCandidates_error hservers]
    | ok servers =>
      rw [runAlone_smartCandidates hservers, runAlone_smartCandidates hservers, hnow]
      rcases eq_or_ne servers [] with rfl | hne
      · rfl
      · exact choice_true_congr (h _ servers hne) servers _

/-- **An empty ranking that was stored** while nothing answered decides a fresh choice a minute
later, when the server answers. -/
theorem stored_ranking_decides_fresh_choice :
    let choose := fun cache : ServerRankingCache =>
      ((smartCandidates true).runAlone (perform GoBackend.noAddresses GoBackend.applicationId)
        (fun _ => serving [nearServer] 60000 fun _ => 20) { rankingCache := cache }).1
    let stored := ((getOrBuildRankings [nearServer]).runAlone
        (perform GoBackend.noAddresses GoBackend.applicationId)
        (fun _ => serving [nearServer] 0 fun _ => SmartRoutingService.longMax)
        {}).2.rankingCache
    choose {} = .ok [nearServer] ∧
      choose stored = .error (.illegalState (jstr "No reachable servers found")) := by
  decide

end Fresh

end HomeActivity
end AioVpn
