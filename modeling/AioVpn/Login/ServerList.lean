import AioVpn.Config.Readable
import AioVpn.Home.SmartCandidates

/-!
# Loading and filtering the list of servers

`ServerListActivity` shows the servers of the account as a grid under four filter chips.
`loadServers`, launched once by `onCreate`, fetches the list and shows it with a placeholder for
the pings, then takes the ranking of the servers from the cache or makes one, and shows that
instead.  A tap on a chip notes the filter and applies it to what was loaded.

The fields are `allUiItems`, what was loaded, and `uiItems`, what the grid shows; the adapter of the
grid is given a copy of `uiItems` after each change.  What runs on the main thread between two
suspensions of `loadServers` is one step (`showServers`, `showRanked`), the requests and the
accesses to the cache are the others.  The cache belongs to the process: the home screen puts its
own rankings into it, and logging out clears it.

The connection to a server that is tapped is the subject of `ServerListActivity`.
-/

namespace AioVpn

open Coroutine JString

/-! ## Texts -/

/-- Kotlin's `substringBefore`, for a delimiter that is not empty. -/
def JString.substringBefore (delimiter : JString) : JString → JString
  | [] => []
  | c :: s =>
      if delimiter.isPrefixOf (c :: s) then [] else c :: JString.substringBefore delimiter s

theorem JString.substringBefore_append {c : JChar} (delimiter : JString) {s : JString}
    (hs : c ∉ s) (t : JString) :
    JString.substringBefore (c :: delimiter) (s ++ c :: delimiter ++ t) = s := by
  induction s with
  | nil => simp [JString.substringBefore]
  | cons d s ih =>
    rw [List.mem_cons, not_or] at hs
    have hfirst : (c :: delimiter).isPrefixOf (d :: (s ++ c :: delimiter ++ t)) = false := by
      simp [List.isPrefixOf, hs.1]
    rw [List.cons_append, List.cons_append, JString.substringBefore, hfirst,
      if_neg Bool.false_ne_true, ih hs.2]

/-- `ServerUiItem`. -/
structure ServerUiItem where
  server : WgServerDto
  pingText : JString
  deriving DecidableEq

/-- `ServerFilter`. -/
inductive ServerFilter where
  | all
  | fastest
  | recommended
  | favorites
  deriving DecidableEq

/-- The fields of the activity, and the cache. -/
structure ServerListScreen where
  allUiItems : List ServerUiItem := []
  uiItems : List ServerUiItem := []
  currentFilter : ServerFilter := .all
  rankingCache : ServerRankingCache := {}

namespace ServerList

/-! ## Filters -/

/-- `Int.MAX_VALUE`. -/
def intMax : ℤ := 2147483647

/-- `parsePing`. -/
def parsePing (pingText : JString) : ℤ :=
  (parseInt (substringBefore (jstr " ms") pingText)).getD intMax

/-- `sortedBy { parsePing(it.pingText) }`. -/
def sortedByPing (items : List ServerUiItem) : List ServerUiItem :=
  items.insertionSort fun a b => parsePing a.pingText ≤ parsePing b.pingText

/-- The items that `applyFilter` selects. -/
def filtered : ServerFilter → List ServerUiItem → List ServerUiItem
  | .all, items => items
  | .fastest, items => (sortedByPing items).take 9
  | .recommended, items => (sortedByPing items).take 6
  | .favorites, _ => []

/-- `applyFilter`. -/
def applyFilter (s : ServerListScreen) : ServerListScreen :=
  { s with uiItems := filtered s.currentFilter s.allUiItems }

/-- The listener of a chip. -/
def tap (filter : ServerFilter) (s : ServerListScreen) : ServerListScreen :=
  applyFilter { s with currentFilter := filter }

/-! ## `loadServers` -/

/-- The items of a list that was fetched. -/
def fetchedItems (servers : List WgServerDto) : List ServerUiItem :=
  servers.map fun server => ⟨server, jstr "-- ms"⟩

/-- The items of a ranking. -/
def rankedItems (ranked : List ServerScore) : List ServerUiItem :=
  ranked.map fun score => ⟨score.server, decimal score.latencyMs ++ jstr " ms"⟩

/-- The atomic steps. -/
inductive ListOp where
  /-- `repo.servers()`. -/
  | servers
  /-- The list has arrived. -/
  | showServers (servers : List WgServerDto)
  /-- The ranking in the cache, if it is valid. -/
  | cachedRankings
  | rankServers (servers : List WgServerDto)
  | setRankings (ranked : List ServerScore)
  /-- A ranking has arrived. -/
  | showRanked (ranked : List ServerScore)
  /-- The toast `Failed to load servers`. -/
  | toast (e : HomeExn)
  deriving DecidableEq

/-- The answers to the steps. -/
@[reducible] def ListOp.Res : ListOp → Type
  | servers => Except HomeExn (List WgServerDto)
  | showServers _ => Unit
  | cachedRankings => Option (List ServerScore)
  | rankServers _ => List ServerScore
  | setRankings _ => Unit
  | showRanked _ => Unit
  | toast _ => Unit

/-- `allUiItems` and `uiItems` are replaced. -/
def showItems (items : List ServerUiItem) (s : ServerListScreen) : ServerListScreen :=
  { s with allUiItems := items, uiItems := items }

/-- The answer to a step and the state after it. -/
def perform : (o : ListOp) → HomeEnv → ServerListScreen → o.Res × ServerListScreen
  | .servers, env, s => (HomeActivity.repoServers env, s)
  | .showServers servers, _, s => ((), showItems (fetchedItems servers) s)
  | .cachedRankings, env, s => (s.rankingCache.cached env.now, s)
  | .rankServers servers, env, s => (SmartRoutingService.rankServers env.latency servers, s)
  | .setRankings ranked, env, s =>
      ((), { s with rankingCache := ServerRankingCache.set env.now ranked })
  | .showRanked ranked, _, s => ((), showItems (rankedItems ranked) s)
  | .toast _, _, s => ((), s)

/-- A body over these steps. -/
abbrev ListProg (ε α : Type) := Prog ListOp ListOp.Res ε α

/-- One atomic step of a body. -/
def step {ε : Type} (o : ListOp) : ListProg ε o.Res := Prog.perform o

/-- The ranking, from the cache or made anew. -/
def rankings {ε : Type} (servers : List WgServerDto) : ListProg ε (List ServerScore) := do
  match ← step .cachedRankings with
  | some ranked => pure ranked
  | none =>
      let ranked ← step (.rankServers servers)
      step (.setRankings ranked)
      pure ranked

/-- The coroutine of `loadServers`. -/
def loadServers : ListProg Empty Unit :=
  Prog.tryCatch
    (do
      let servers ← Prog.ofExcept (← step .servers)
      step (.showServers servers)
      let ranked ← rankings servers
      if ranked.isEmpty then pure () else step (.showRanked ranked))
    (fun (e : HomeExn) => step (.toast e))

/-! ## The screen -/

/-- The coroutine of the screen. -/
inductive Job where
  | loadServers
  deriving DecidableEq

/-- A chip is tapped, or the cache is written elsewhere. -/
inductive Event where
  | tap (filter : ServerFilter)
  /-- The home screen puts its ranking of a list into the cache. -/
  | rankedElsewhere (now : ℤ) (latency : ℕ → ℕ) (servers : List WgServerDto)
  /-- The user logs out. -/
  | cleared

/-- The state after an event. -/
def after : Event → ServerListScreen → ServerListScreen
  | .tap filter, s => tap filter s
  | .rankedElsewhere now latency servers, s =>
      { s with rankingCache :=
          ServerRankingCache.set now (SmartRoutingService.rankServers latency servers) }
  | .cleared, s => { s with rankingCache := {} }

/-- The screen as a system of coroutines. -/
def system : System ListOp ListOp.Res Empty HomeEnv ServerListScreen Job Event where
  perform := perform
  body := fun _ => do
    loadServers
    pure none
  handle := fun e s => some (after e s, none)

/-- A configuration of the screen. -/
abbrev ListConf := Conf ListOp ListOp.Res Empty Job ServerListScreen

/-- The screen has been created, with this content of the cache. -/
def start (cache : ServerRankingCache) : ListConf :=
  ⟨{ rankingCache := cache }, [⟨.loadServers, system.body .loadServers⟩]⟩

/-! ## The pings -/

/-- The order of the list is kept among equal pings, and the smallest come first. -/
theorem sortedByPing_spec (items : List ServerUiItem) :
    (sortedByPing items).Perm items ∧
      ((sortedByPing items).Pairwise fun a b => parsePing a.pingText ≤ parsePing b.pingText) ∧
      ∀ a b, [a, b].Sublist items → parsePing a.pingText ≤ parsePing b.pingText →
        [a, b].Sublist (sortedByPing items) := by
  have htotal : Std.Total fun a b : ServerUiItem => parsePing a.pingText ≤ parsePing b.pingText :=
    ⟨fun a b => le_total (parsePing a.pingText) (parsePing b.pingText)⟩
  have htrans : IsTrans ServerUiItem fun a b => parsePing a.pingText ≤ parsePing b.pingText :=
    ⟨fun a b c => le_trans⟩
  refine ⟨List.perm_insertionSort _ _, List.pairwise_insertionSort _ _, fun a b hsub hab => ?_⟩
  exact List.pair_sublist_insertionSort hab hsub

/-- The ping of a ranking is its latency, up to the largest integer. -/
theorem parsePing_latency (latencyMs : ℕ) :
    parsePing (decimal latencyMs ++ jstr " ms") = min (latencyMs : ℤ) intMax := by
  have hblank : ch ' ' ∉ decimal (latencyMs : ℤ) :=
    notMem_decimal (Int.natCast_nonneg latencyMs) (by decide)
  have hcut : substringBefore (jstr " ms") (decimal (latencyMs : ℤ) ++ jstr " ms") =
      decimal (latencyMs : ℤ) := by
    have happend := substringBefore_append (jstr "ms") hblank []
    rwa [List.append_nil] at happend
  rw [parsePing, hcut, parseInt_decimal_eq (Int.natCast_nonneg latencyMs), intMax]
  split
  · rw [Option.getD_some]
    omega
  · rw [Option.getD_none]
    omega

/-- **What was fetched** is in the order of its pings: they are all the same. -/
theorem sortedByPing_fetchedItems (servers : List WgServerDto) :
    sortedByPing (fetchedItems servers) = fetchedItems servers := by
  refine List.Pairwise.insertionSort_eq (List.pairwise_map.mpr (List.pairwise_of_forall ?_))
  intro a b
  exact le_refl _

/-- **A ranking** is in the order of its pings. -/
theorem sortedByPing_rankedItems {ranked : List ServerScore}
    (h : ranked.Pairwise fun a b => a.latencyMs ≤ b.latencyMs) :
    sortedByPing (rankedItems ranked) = rankedItems ranked := by
  refine List.Pairwise.insertionSort_eq (List.pairwise_map.mpr (h.imp ?_))
  intro a b hab
  rw [parsePing_latency, parsePing_latency]
  exact min_le_min (by exact_mod_cast hab) (le_refl _)

end ServerList
end AioVpn
