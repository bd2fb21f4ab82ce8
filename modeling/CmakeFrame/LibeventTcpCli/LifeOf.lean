import CmakeFrame.LibeventTcpCli.Moves

/-!
# `libeventcpcli`: what happens to one connection

* `LifeOf`: the invariant of one connection: on its way into the map, in it, or ended; what the map
  had it with is what `connCb` has been called with, or is about to be.
* One lemma for each thing that a thread can do to it.
-/

namespace CmakeFrame
namespace LibeventTcpCli

open Lib

/-- The states that `connCb` was called with. -/
def reportedStates (log : List Ev) : List TcpClientState :=
  log.filterMap fun
    | .connCb state => some state
    | _ => none

/-- The look-ups of a connection that is not in the map any more. -/
def Ended (states : List TcpClientState) : Prop :=
  states = [.CONN_FAILED] ∨ states = [.DIS_CONNECT] ∨ states = [.CONN_SUCCESS, .DIS_CONNECT]

section

variable {n t id : Nat} {threads : List Phase} {map : List Nat} {c c' : Conn} {p p' : Phase}
  {state : TcpClientState}

/-- A thread goes from `p` to `p'`. -/
theorem count_set (ht : threads[t]? = some p) (p' x : Phase) :
    (threads.set t p').count x + (if p = x then 1 else 0)
      = threads.count x + if p' = x then 1 else 0 := by
  have h := countP_set (· == x) ht p'
  simpa [List.count] using h

/-- Neither phase of the thread is `x`. -/
theorem count_set_other (ht : threads[t]? = some p) (p' x : Phase) (hp : p ≠ x) (hp' : p' ≠ x) :
    (threads.set t p').count x = threads.count x := by
  have h := count_set ht p' x
  rw [if_neg hp, if_neg hp'] at h
  omega

/-- What a thread is not at now, it was at before. -/
theorem set_other {u : Nat} {x : Phase} (h : (threads.set t p')[u]? = some x) (hp' : p' ≠ x) :
    threads[u]? = some x := by
  rcases set_cases h with ⟨-, heq⟩ | ⟨-, h⟩
  · exact absurd heq.symm hp'
  · exact h

/-- The connection is on its way into the map, in it, or ended; the states found are reported or about
to be; one success at most comes from the IO thread. -/
structure LifeOf (n : Nat) (threads : List Phase) (map : List Nat) (id : Nat) (c : Conn) : Prop where
  added : threads.count (.adding id) + map.count id ≤ 1
  fresh : 0 < threads.count (.adding id) → foundStates c.log = []
  wanted : id ∈ map → foundStates c.log = [] ∨ foundStates c.log = [.CONN_SUCCESS]
  gone : threads.count (.adding id) + map.count id = 0 → Ended (foundStates c.log)
  counts : ∀ state, threads.count (.calling id state) + (reportedStates c.log).count state
    = (foundStates c.log).count state
  order : reportedStates c.log <+: foundStates c.log
  results : ∀ state, .result state ∈ c.log → state ∈ foundStates c.log
  once : c.cli.connecting.length + threads.count (.ending id .CONN_SUCCESS)
    + (foundStates c.log).count .CONN_SUCCESS ≤ 1
  unused : .connectServer true ∉ c.log → c.cli.connecting.length
    + threads.count (.ending id .CONN_SUCCESS) + (foundStates c.log).count .CONN_SUCCESS = 0
  failed : c.cli.state_ = .CONN_FAILED →
    threads.count (.ending id .CONN_SUCCESS) + (foundStates c.log).count .CONN_SUCCESS = 0
  io : ∀ t < n, threads[t]? = some (.ending id .CONN_FAILED) →
    .CONN_SUCCESS ∉ foundStates c.log
  looks : ∀ t, threads[t]? = some (.ending id .CONN_SUCCESS) → t < n

/-- What does not matter for the states that are reported. -/
structure Alike (c c' : Conn) : Prop where
  found : foundStates c'.log = foundStates c.log
  reported : reportedStates c'.log = reportedStates c.log
  results : ∀ state, .result state ∈ c'.log → .result state ∈ c.log
  connected : .connectServer true ∈ c.log → .connectServer true ∈ c'.log
  state : c'.cli.state_ = c.cli.state_
  connecting : c'.cli.connecting.length ≤ c.cli.connecting.length

/-- The map had the connection, with `state`. -/
structure Finds (state : TcpClientState) (c c' : Conn) : Prop where
  found : foundStates c'.log = foundStates c.log ++ [state]
  reported : reportedStates c'.log = reportedStates c.log
  results : ∀ r, .result r ∈ c'.log → .result r ∈ c.log ∨ r = state
  connected : .connectServer true ∈ c.log → .connectServer true ∈ c'.log
  cli : c'.cli = c.cli

/-- A phase in which a thread does nothing to connection `id` that is reported. -/
def Phase.Passive (id : Nat) (p : Phase) : Prop :=
  p ≠ .adding id ∧ p ≠ .ending id .CONN_SUCCESS ∧ ∀ state, p ≠ .calling id state

namespace LifeOf

theorem alike (hi : LifeOf n threads map id c) (h : Alike c c') : LifeOf n threads map id c' where
  added := hi.added
  fresh := by
    rw [h.found]
    exact hi.fresh
  wanted := by
    rw [h.found]
    exact hi.wanted
  gone := by
    rw [h.found]
    exact hi.gone
  counts := by
    rw [h.found, h.reported]
    exact hi.counts
  order := by
    rw [h.found, h.reported]
    exact hi.order
  results := by
    rw [h.found]
    exact fun state hs => hi.results state (h.results state hs)
  once := by
    rw [h.found]
    have := hi.once
    have := h.connecting
    omega
  unused := by
    intro hn
    rw [h.found]
    have := hi.unused fun hc => hn (h.connected hc)
    have := h.connecting
    omega
  failed := by
    rw [h.found, h.state]
    exact hi.failed
  io := by
    rw [h.found]
    exact hi.io
  looks := hi.looks

/-- A thread moves to a phase that does not matter, or in which it is about to report an end. -/
theorem move (hi : LifeOf n threads map id c) (ht : threads[t]? = some p) (hadd : p ≠ .adding id)
    (hcall : ∀ state, p ≠ .calling id state) (hp' : p'.Passive id)
    (hio : t < n → p' = .ending id .CONN_FAILED → .CONN_SUCCESS ∉ foundStates c.log) :
    LifeOf n (threads.set t p') map id c := by
  have hadding := count_set ht p' (.adding id)
  have hending := count_set ht p' (.ending id .CONN_SUCCESS)
  rw [if_neg hadd, if_neg hp'.1, Nat.add_zero, Nat.add_zero] at hadding
  rw [if_neg hp'.2.1, Nat.add_zero] at hending
  constructor
  case added =>
    rw [hadding]
    exact hi.added
  case fresh =>
    rw [hadding]
    exact hi.fresh
  case wanted => exact hi.wanted
  case gone =>
    rw [hadding]
    exact hi.gone
  case counts =>
    intro state
    have hcalling := count_set_other ht p' (.calling id state) (hcall state) (hp'.2.2 state)
    rw [hcalling]
    exact hi.counts state
  case order => exact hi.order
  case results => exact hi.results
  case once =>
    have := hi.once
    omega
  case unused =>
    intro hn
    have := hi.unused hn
    omega
  case failed =>
    intro hs
    have := hi.failed hs
    omega
  case io =>
    intro u hu hq
    rcases set_cases hq with ⟨rfl, heq⟩ | ⟨-, hq⟩
    · exact hio hu heq.symm
    · exact hi.io u hu hq
  case looks => exact fun u hq => hi.looks u (set_other hq hp'.2.1)

/-- Only how often the connection is in the map matters. -/
theorem map_congr (hi : LifeOf n threads map id c) {map' : List Nat}
    (h : map'.count id = map.count id) : LifeOf n threads map' id c :=
  { hi with
    added := by
      rw [h]
      exact hi.added
    wanted := by
      rw [← List.count_pos_iff, h, List.count_pos_iff]
      exact hi.wanted
    gone := by
      rw [h]
      exact hi.gone }

/-- `libeventAddConnect` starts. -/
theorem new (hid : ∀ p ∈ threads, p.client? ≠ some id) (hmap : id ∉ map)
    (ht : threads[t]? = some .idle) (client : TcpClient) (hclient : client.connecting = []) :
    LifeOf n (threads.set t (.adding id)) map id ⟨client, []⟩ := by
  have hnone : ∀ q : Phase, q.client? = some id → q ∉ threads := fun q hq hmem => hid q hmem hq
  have hadding := count_set ht (.adding id) (.adding id)
  rw [if_neg Phase.noConfusion, if_pos rfl, List.count_eq_zero.mpr (hnone (.adding id) rfl)]
    at hadding
  have hending := count_set ht (.adding id) (.ending id .CONN_SUCCESS)
  rw [if_neg Phase.noConfusion, if_neg Phase.noConfusion,
    List.count_eq_zero.mpr (hnone (.ending id .CONN_SUCCESS) rfl)] at hending
  have hnot : ∀ (u : Nat) (state : TcpClientState),
      (threads.set t (.adding id))[u]? ≠ some (.ending id state) := by
    intro u state hq
    rcases set_cases hq with ⟨-, heq⟩ | ⟨-, hq⟩
    · cases heq
    · exact hnone (.ending id state) rfl (List.mem_of_getElem? hq)
  constructor
  case added =>
    rw [List.count_eq_zero.mpr hmap]
    omega
  case fresh => exact fun _ => rfl
  case wanted => exact fun h => absurd h hmap
  case gone => omega
  case counts =>
    intro state
    have hcalling := count_set ht (.adding id) (.calling id state)
    rw [if_neg Phase.noConfusion, if_neg Phase.noConfusion,
      List.count_eq_zero.mpr (hnone (.calling id state) rfl)] at hcalling
    simpa [reportedStates, foundStates] using hcalling
  case order => exact List.prefix_rfl
  case results => exact fun _ h => nomatch h
  case once =>
    simp only [hclient, List.length_nil, foundStates, List.filterMap_nil, List.count_nil]
    omega
  case unused =>
    intro _
    simp only [hclient, List.length_nil, foundStates, List.filterMap_nil, List.count_nil]
    omega
  case failed =>
    intro _
    simp only [foundStates, List.filterMap_nil, List.count_nil]
    omega
  case io => exact fun u _ hq => absurd hq (hnot u _)
  case looks => exact fun u hq => absurd hq (hnot u _)

/-- `libeventAddConnect` ends. -/
theorem insert (hi : LifeOf n threads map id c) (ht : threads[t]? = some (.adding id)) :
    LifeOf n (threads.set t .idle) (map ++ [id]) id c := by
  have hpos : 0 < threads.count (.adding id) :=
    List.count_pos_iff.mpr (List.mem_of_getElem? ht)
  have hfresh := hi.fresh hpos
  have hadded := hi.added
  have hadding := count_set ht .idle (.adding id)
  rw [if_pos rfl, if_neg Phase.noConfusion] at hadding
  have hending := count_set_other ht .idle (.ending id .CONN_SUCCESS) nofun nofun
  constructor
  case added =>
    rw [List.count_append, List.count_singleton_self]
    omega
  case fresh => exact fun _ => hfresh
  case wanted => exact fun _ => .inl hfresh
  case gone =>
    rw [List.count_append, List.count_singleton_self]
    omega
  case counts =>
    intro state
    have hcalling := count_set_other ht .idle (.calling id state) nofun nofun
    rw [hcalling]
    exact hi.counts state
  case order => exact hi.order
  case results => exact hi.results
  case once =>
    rw [hending]
    exact hi.once
  case unused =>
    rw [hending]
    exact hi.unused
  case failed =>
    rw [hending]
    exact hi.failed
  case io => exact fun u hu hq => hi.io u hu (set_other hq nofun)
  case looks => exact fun u hq => hi.looks u (set_other hq nofun)

/-- A thread that reports counts for its state. -/
theorem calling_count (id : Nat) (state r : TcpClientState) :
    (if Phase.calling id state = .calling id r then 1 else 0) = [state].count r := by
  by_cases hr : state = r
  · rw [hr, if_pos rfl, List.count_singleton_self]
  · rw [if_neg (by simpa using hr), List.count_singleton, if_neg (by simpa using hr)]

/-- `tcpServerConnect` finds the connection, and is about to report `state`. -/
theorem found_counts (hi : LifeOf n threads map id c) (ht : threads[t]? = some (.ending id state))
    (hf : Finds state c c') (r : TcpClientState) :
    (threads.set t (.calling id state)).count (.calling id r)
      + (reportedStates c'.log).count r = (foundStates c'.log).count r := by
  have hcalling := count_set ht (.calling id state) (.calling id r)
  have hcounts := hi.counts r
  rw [if_neg Phase.noConfusion, calling_count] at hcalling
  rw [hf.found, hf.reported, List.count_append]
  omega

theorem found_order (hi : LifeOf n threads map id c) (hf : Finds state c c') :
    reportedStates c'.log <+: foundStates c'.log := by
  rw [hf.found, hf.reported]
  exact hi.order.trans (List.prefix_append _ _)

theorem found_results (hi : LifeOf n threads map id c) (hf : Finds state c c') :
    ∀ r, .result r ∈ c'.log → r ∈ foundStates c'.log := by
  intro r hr
  rw [hf.found]
  rcases hf.results r hr with hr | rfl
  · exact List.mem_append_left _ (hi.results r hr)
  · exact List.mem_append_right _ List.mem_cons_self

/-- A success that is found. -/
theorem lookSuccess (hi : LifeOf n threads map id c)
    (ht : threads[t]? = some (.ending id .CONN_SUCCESS)) (hmap : id ∈ map)
    (hown : ∀ u < n, threads[u]? ≠ some (.ending id .CONN_FAILED))
    (hf : Finds .CONN_SUCCESS c c') :
    LifeOf n (threads.set t (.calling id .CONN_SUCCESS)) map id c' := by
  have hpos : 0 < threads.count (.ending id .CONN_SUCCESS) :=
    List.count_pos_iff.mpr (List.mem_of_getElem? ht)
  have hadding := count_set_other ht (.calling id .CONN_SUCCESS) (.adding id) nofun nofun
  have hending := count_set ht (.calling id .CONN_SUCCESS) (.ending id .CONN_SUCCESS)
  rw [if_pos rfl, if_neg Phase.noConfusion] at hending
  have honce := hi.once
  have hmappos := List.count_pos_iff.mpr hmap
  have hadded := hi.added
  -- there has been no success before
  have hfirst : foundStates c.log = [] := by
    rcases hi.wanted hmap with h | h
    · exact h
    · rw [h, List.count_singleton_self] at honce
      omega
  rw [hfirst, List.count_nil] at honce
  have hfound : foundStates c'.log = [.CONN_SUCCESS] := by
    rw [hf.found, hfirst]
    rfl
  constructor
  case added =>
    rw [hadding]
    exact hadded
  case fresh => omega
  case wanted => exact fun _ => .inr hfound
  case gone => omega
  case counts => exact hi.found_counts ht hf
  case order => exact hi.found_order hf
  case results => exact hi.found_results hf
  case once =>
    rw [hf.cli, hfound, List.count_singleton_self]
    omega
  case unused =>
    intro hn
    have := hi.unused fun h => hn (hf.connected h)
    omega
  case failed =>
    rw [hf.cli]
    intro hs
    have := hi.failed hs
    omega
  case io => exact fun u hu hq => absurd (set_other hq nofun) (hown u hu)
  case looks => exact fun u hq => hi.looks u (set_other hq nofun)

/-- An end that is found: the connection is not in the map any more. -/
theorem lookEnd (hi : LifeOf n threads map id c) (ht : threads[t]? = some (.ending id state))
    (hmap : id ∈ map) (hstate : state ≠ .CONN_SUCCESS)
    (hfailed : state = .CONN_FAILED → .CONN_SUCCESS ∉ foundStates c.log) (hf : Finds state c c') :
    LifeOf n (threads.set t (.calling id state)) (map.erase id) id c' := by
  have hadding := count_set_other ht (.calling id state) (.adding id) nofun nofun
  have hending := count_set_other ht (.calling id state) (.ending id .CONN_SUCCESS) (by simpa using hstate) nofun
  have hmappos := List.count_pos_iff.mpr hmap
  have hadded := hi.added
  have herase : (map.erase id).count id = 0 := by
    rw [List.count_erase_self]
    omega
  have hsame : (foundStates c'.log).count .CONN_SUCCESS
      = (foundStates c.log).count .CONN_SUCCESS := by
    rw [hf.found, List.count_append, List.count_singleton, if_neg (by simpa using hstate),
      Nat.add_zero]
  have hended : Ended (foundStates c'.log) := by
    rw [hf.found]
    rcases hi.wanted hmap with h | h
    · rw [h]
      cases state with
      | CONN_FAILED => exact .inl rfl
      | CONN_SUCCESS => exact absurd rfl hstate
      | DIS_CONNECT => exact .inr (.inl rfl)
    · rw [h] at hfailed ⊢
      cases state with
      | CONN_FAILED => exact absurd List.mem_cons_self (hfailed rfl)
      | CONN_SUCCESS => exact absurd rfl hstate
      | DIS_CONNECT => exact .inr (.inr rfl)
  constructor
  case added => omega
  case fresh => omega
  case wanted => exact fun h => absurd (List.count_pos_iff.mpr h) (by omega)
  case gone => exact fun _ => hended
  case counts => exact hi.found_counts ht hf
  case order => exact hi.found_order hf
  case results => exact hi.found_results hf
  case once =>
    rw [hf.cli, hending, hsame]
    exact hi.once
  case unused =>
    intro hn
    rw [hf.cli, hending, hsame]
    exact hi.unused fun h => hn (hf.connected h)
  case failed =>
    rw [hf.cli, hending, hsame]
    exact hi.failed
  case io =>
    intro u hu hq
    rw [← List.count_eq_zero, hsame, List.count_eq_zero]
    exact hi.io u hu (set_other hq nofun)
  case looks => exact fun u hq => hi.looks u (set_other hq nofun)

/-- Whatever the connection has come to, the states found are among these. -/
theorem shape (hi : LifeOf n threads map id c) : foundStates c.log = [] ∨
    foundStates c.log = [.CONN_SUCCESS] ∨ Ended (foundStates c.log) := by
  by_cases hadd : 0 < threads.count (.adding id)
  · exact .inl (hi.fresh hadd)
  · by_cases hmap : id ∈ map
    · exact (hi.wanted hmap).imp_right .inl
    · have := List.count_eq_zero.mpr hmap
      exact .inr (.inr (hi.gone (by omega)))

/-- The state that a thread is about to report is the next one, as it does not report an end before
the success. -/
theorem next_reported (hi : LifeOf n threads map id c) (ht : threads[t]? = some (.calling id state))
    (hsuccess : state ≠ .CONN_SUCCESS → .calling id .CONN_SUCCESS ∉ threads) :
    reportedStates c.log ++ [state] <+: foundStates c.log := by
  have hpos : 0 < threads.count (.calling id state) :=
    List.count_pos_iff.mpr (List.mem_of_getElem? ht)
  have hcount : (reportedStates c.log).count state < (foundStates c.log).count state := by
    have := hi.counts state
    omega
  have hfirst : state ≠ .CONN_SUCCESS → (reportedStates c.log).count .CONN_SUCCESS
      = (foundStates c.log).count .CONN_SUCCESS := by
    intro hne
    have h0 := List.count_eq_zero.mpr (hsuccess hne)
    have := hi.counts .CONN_SUCCESS
    omega
  have horder := hi.order
  have hone (x : TcpClientState) (hx : foundStates c.log = [x]) :
      reportedStates c.log ++ [state] <+: foundStates c.log := by
    rw [hx] at hcount horder ⊢
    rcases List.prefix_cons_iff.mp horder with h | ⟨l, h, hl⟩
    · rw [h] at hcount ⊢
      have : state = x := by
        by_contra hne
        rw [List.count_singleton, if_neg (by simpa using Ne.symm hne)] at hcount
        omega
      rw [this]
      exact List.prefix_rfl
    · rw [List.prefix_nil.mp hl] at h
      rw [h] at hcount
      omega
  rcases hi.shape with h | h | h | h | h
  · rw [h] at hcount
    simp at hcount
  · exact hone _ h
  · exact hone _ h
  · exact hone _ h
  · rw [h] at hcount hfirst horder ⊢
    rcases List.prefix_cons_iff.mp horder with h' | ⟨l, h', hl⟩
    · rw [h'] at hfirst ⊢
      have : state = .CONN_SUCCESS := by
        by_contra hne
        have := hfirst hne
        simp at this
      rw [this]
      exact List.prefix_append [TcpClientState.CONN_SUCCESS] _
    · rcases List.prefix_cons_iff.mp hl with rfl | ⟨l', rfl, hl'⟩
      · rw [h'] at hcount ⊢
        cases state with
        | DIS_CONNECT => exact List.prefix_rfl
        | CONN_FAILED | CONN_SUCCESS => simp at hcount
      · rw [List.prefix_nil.mp hl'] at h'
        rw [h'] at hcount
        omega

/-- `connCb` is called. -/
theorem call (hi : LifeOf n threads map id c) (ht : threads[t]? = some (.calling id state))
    (hsuccess : state ≠ .CONN_SUCCESS → .calling id .CONN_SUCCESS ∉ threads)
    (hfound : foundStates c'.log = foundStates c.log)
    (hreported : reportedStates c'.log = reportedStates c.log ++ [state])
    (hresults : ∀ r, .result r ∈ c'.log → .result r ∈ c.log)
    (hconnected : .connectServer true ∈ c.log → .connectServer true ∈ c'.log)
    (hcli : c'.cli = c.cli) : LifeOf n (threads.set t .idle) map id c' := by
  have hadding := count_set_other ht .idle (.adding id) nofun nofun
  have hending := count_set_other ht .idle (.ending id .CONN_SUCCESS) nofun nofun
  have hnext := hi.next_reported ht hsuccess
  constructor
  case added =>
    rw [hadding]
    exact hi.added
  case fresh =>
    rw [hadding, hfound]
    exact hi.fresh
  case wanted =>
    rw [hfound]
    exact hi.wanted
  case gone =>
    rw [hadding, hfound]
    exact hi.gone
  case counts =>
    intro r
    have hcalling := count_set ht .idle (.calling id r)
    have hcounts := hi.counts r
    rw [if_neg (c := Phase.idle = _) Phase.noConfusion, calling_count] at hcalling
    rw [hfound, hreported, List.count_append]
    omega
  case order =>
    rw [hfound, hreported]
    exact hnext
  case results =>
    rw [hfound]
    exact fun r hr => hi.results r (hresults r hr)
  case once =>
    rw [hcli, hending, hfound]
    exact hi.once
  case unused =>
    intro hn
    rw [hcli, hending, hfound]
    exact hi.unused fun h => hn (hconnected h)
  case failed =>
    rw [hcli, hending, hfound]
    exact hi.failed
  case io =>
    rw [hfound]
    exact fun u hu hq => hi.io u hu (set_other hq nofun)
  case looks => exact fun u hq => hi.looks u (set_other hq nofun)

/-- A bufferevent has connected. -/
theorem connected (hi : LifeOf n threads map id c) (hlt : t < n) (ht : threads[t]? = some .idle)
    (hlog : c'.log = c.log) (hstate : c'.cli.state_ = .CONN_SUCCESS)
    (hconn : c'.cli.connecting.length + 1 = c.cli.connecting.length) :
    LifeOf n (threads.set t (.ending id .CONN_SUCCESS)) map id c' := by
  have hadding := count_set_other ht (.ending id .CONN_SUCCESS) (.adding id) nofun nofun
  have hending := count_set ht (.ending id .CONN_SUCCESS) (.ending id .CONN_SUCCESS)
  rw [if_neg Phase.noConfusion, if_pos rfl, Nat.add_zero] at hending
  constructor
  case added =>
    rw [hadding]
    exact hi.added
  case fresh =>
    rw [hadding, hlog]
    exact hi.fresh
  case wanted =>
    rw [hlog]
    exact hi.wanted
  case gone =>
    rw [hadding, hlog]
    exact hi.gone
  case counts =>
    intro r
    have hcalling := count_set_other ht (.ending id .CONN_SUCCESS) (.calling id r) nofun nofun
    rw [hcalling, hlog]
    exact hi.counts r
  case order =>
    rw [hlog]
    exact hi.order
  case results =>
    rw [hlog]
    exact hi.results
  case once =>
    have := hi.once
    rw [hlog]
    omega
  case unused =>
    intro hn
    rw [hlog] at hn
    have := hi.unused hn
    omega
  case failed =>
    rw [hstate]
    exact fun h => nomatch h
  case io =>
    rw [hlog]
    exact fun u hu hq => hi.io u hu (set_other hq nofun)
  case looks =>
    intro u hq
    rcases set_cases hq with ⟨rfl, -⟩ | ⟨-, hq⟩
    · exact hlt
    · exact hi.looks u hq

/-- `connectServer` succeeds, for the first time. -/
theorem connectServer (hi : LifeOf n threads map id c) (hfirst : .connectServer true ∉ c.log)
    (hlog : c'.log = c.log ++ [.connectServer true]) (hstate : c'.cli.state_ = c.cli.state_)
    (hconn : c'.cli.connecting.length = c.cli.connecting.length + 1) :
    LifeOf n threads map id c' := by
  have hfound : foundStates c'.log = foundStates c.log := by
    simp [hlog, foundStates]
  have hreported : reportedStates c'.log = reportedStates c.log := by
    simp [hlog, reportedStates]
  have hunused := hi.unused hfirst
  refine { hi with
    fresh := by
      rw [hfound]
      exact hi.fresh
    wanted := by
      rw [hfound]
      exact hi.wanted
    gone := by
      rw [hfound]
      exact hi.gone
    counts := by
      rw [hfound, hreported]
      exact hi.counts
    order := by
      rw [hfound, hreported]
      exact hi.order
    results := ?_
    once := by
      rw [hfound]
      omega
    unused := fun hn => absurd (by simp [hlog]) hn
    failed := by
      rw [hstate, hfound]
      exact hi.failed
    io := by
      rw [hfound]
      exact hi.io }
  intro r hr
  rw [hlog] at hr
  simp only [List.mem_append, List.mem_singleton, reduceCtorEq, or_false] at hr
  rw [hfound]
  exact hi.results r hr

end LifeOf

end

end LibeventTcpCli
end CmakeFrame
