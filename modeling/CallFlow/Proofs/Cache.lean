import CallFlow.Exchange
import Mathlib.Data.List.Induction
import Mathlib.Logic.Function.Basic
import Mathlib.Order.Nat

/-!
# What caches hold

A cache holds the text of the last dialplan that was renewed with it, or that was put into it by
hand. This is said of turns: a `Turn` is one demand on a service, which may have any store and any
settings at that time and any cache, so turns that name one cache share it. Each turn writes to its
own cache at most, and only a dialplan that is renewed or a text that is put there writes at all
(`Turn.after_apply`); over a row of turns the last one that writes counts (`cachesAfter_eq`). What
an exchange does is a row of turns of its stations: a cache that it opens is empty and no station
had it before (`Exchange.Tidy`), so its caches are those of its turns (`Exchange.Tidy.caches_run`).
-/

namespace CallFlow

/-- What a service at work is asked for: the whole dialplan, a script, what its cache holds, or to
put a text into its cache. -/
inductive Demand where
  | dialplan (timing : Timing)
  | script (id : ScriptId)
  | cached
  | put (text : String)
deriving DecidableEq, Repr

/-- A demand on a service with the store and the settings that it has then, and the number of the
cache that it has then. -/
structure Turn where
  service : Service
  cache : Nat
  demand : Demand

namespace Turn

/-- What the cache of the turn holds after it. -/
def keep (t : Turn) (held : String) : String :=
  match t.demand with
  | .dialplan _ => t.service.keep held
  | .put text => text
  | .script _ | .cached => held

/-- The reply to the demand, given what the cache holds before it. -/
def reply (t : Turn) (held : String) : Reply :=
  match t.demand with
  | .dialplan timing => .dialplan (t.service.respond held timing)
  | .script i => .body (t.service.compileScript i)
  | .cached => .cache held
  | .put _ => .done

/-- What all caches hold after the turn. -/
def after (t : Turn) (caches : Nat → String) : Nat → String :=
  Function.update caches t.cache (t.keep (caches t.cache))

/-- The text that the turn writes to a cache: that of a dialplan that is renewed, or the one that is
put there. -/
def written? (i : Nat) (t : Turn) : Option String :=
  if t.cache = i then
    match t.demand with
    | .dialplan _ => t.service.refresh.toOption
    | .put text => some text
    | .script _ | .cached => none
  else none

end Turn

/-- What all caches hold after turns, in order. At first they are empty. -/
def cachesAfter (ts : List Turn) : Nat → String :=
  ts.foldl (fun caches t => t.after caches) fun _ => ""

/-- The text that was last written to a cache in turns, and the empty text if there was none. -/
def lastGood (i : Nat) (ts : List Turn) : String :=
  (ts.filterMap (Turn.written? i)).getLastD ""

section
variable {t : Turn} {caches : Nat → String}

/-! ## Turns -/

/-- The cache of a turn keeps what it holds unless the turn writes to it. -/
theorem Turn.keep_eq (t : Turn) (held : String) :
    t.keep held = (t.written? t.cache).getD held := by
  unfold keep written?
  rw [if_pos rfl]
  cases t.demand with
  | dialplan timing =>
    dsimp only
    unfold Service.keep
    cases t.service.refresh <;> rfl
  | put | script | cached => rfl

/-- After a turn a cache holds what the turn wrote to it, or what it held before. -/
theorem Turn.after_apply (t : Turn) (caches : Nat → String) (i : Nat) :
    t.after caches i = (t.written? i).getD (caches i) := by
  by_cases h : t.cache = i
  · subst h
    rw [after, Function.update_self, keep_eq]
  · rw [after, Function.update_of_ne (Ne.symm h), written?, if_neg h, Option.getD_none]

/-- A turn that writes to no cache leaves all caches as they are. -/
theorem Turn.after_eq_self (h : t.written? t.cache = none) : t.after caches = caches := by
  rw [after, keep_eq, h, Option.getD_none, Function.update_eq_self]

/-- The caches after one more turn. -/
theorem cachesAfter_concat (ts : List Turn) (t : Turn) :
    cachesAfter (ts ++ [t]) = t.after (cachesAfter ts) := by
  rw [cachesAfter, List.foldl_append]
  rfl

/-- The last text after one more turn. -/
theorem lastGood_concat (i : Nat) (ts : List Turn) (t : Turn) :
    lastGood i (ts ++ [t]) = (t.written? i).getD (lastGood i ts) := by
  unfold lastGood
  rw [List.filterMap_append]
  cases h : t.written? i with
  | none => simp [h]
  | some text => simp [h]

/-- Over a row of turns the last one that writes to a cache counts. -/
theorem cachesAfter_eq (ts : List Turn) (i : Nat) : cachesAfter ts i = lastGood i ts := by
  induction ts using List.reverseRecOn with
  | nil => rfl
  | append_singleton ts t ih => rw [cachesAfter_concat, Turn.after_apply, ih, lastGood_concat]

end

/-! ## Exchanges -/

/-- The demand on a service that a request to a station is. The other requests change the station,
or ask its store. -/
def Request.demand? : Request → Option Demand
  | .dialplan timing => some (.dialplan timing)
  | .compileScript i => some (.script i)
  | .readCache => some .cached
  | .setCache text => some (.put text)
  | .load _ | .insertScript _ | .pushContext _ | .setHost _ | .failContexts _ | .failScript _ _
  | .failOtherScripts _ | .loadScript _ | .loadContexts => none

/-- The turn that a step is, with the station as it stands. -/
def Exchange.turn? (x : Exchange) : Step → Option Turn
  | .start _ _ _ => none
  | .ask n r => x.stations[n]?.bind fun s => r.demand?.map fun d => ⟨s.service, s.cache, d⟩

/-- The turns among steps, each with its station as it stands then. -/
def Exchange.turns (x : Exchange) : List Step → List Turn
  | [] => []
  | s :: ss => (x.turn? s).toList ++ (x.step s).1.turns ss

/-- No station has a cache that is not in use, and the caches that are not in use are empty. -/
structure Exchange.Tidy (x : Exchange) : Prop where
  cache_lt : ∀ s ∈ x.stations, s.cache < x.size
  caches_eq : ∀ i, x.size ≤ i → x.caches i = ""

section
variable {x : Exchange} {s : Station} {t : Turn} {r : Request} {d : Demand}

/-- What a request leaves in the cache of its station, in terms of its demand. -/
theorem Station.keep_eq (s : Station) (held : String) (r : Request) : s.keep held r =
    match r.demand? with
    | some d => Turn.keep ⟨s.service, s.cache, d⟩ held
    | none => held := by
  cases r <;> rfl

/-- The reply to a request that is a demand. -/
theorem Station.reply_eq (held : String) (h : r.demand? = some d) :
    s.reply held r = Turn.reply ⟨s.service, s.cache, d⟩ held := by
  cases r <;> cases h <;> rfl

/-- A station keeps its cache. -/
@[simp] theorem Station.cache_update (s : Station) (r : Request) :
    (s.update r).cache = s.cache := by
  cases r <;> rfl

/-- A station that is not there is not asked. -/
theorem Exchange.ask_of_none {n : Nat} (h : x.stations[n]? = none) :
    x.ask n r = (x, .noStation) := by
  rw [ask, h]

/-- A station that is there is asked: it changes, its cache keeps what it keeps, and it replies. -/
theorem Exchange.ask_of_some {n : Nat} (h : x.stations[n]? = some s) : x.ask n r =
    (⟨x.stations.set n (s.update r), x.size,
      Function.update x.caches s.cache (s.keep (x.caches s.cache) r)⟩,
      s.reply (x.caches s.cache) r) := by
  have hupdate : ∀ text, (fun j => if j = s.cache then text else x.caches j) =
      Function.update x.caches s.cache text := by
    intro text
    funext j
    rw [Function.update_apply]
  rw [ask, h]
  simp only [setCache, hupdate]

/-- What opening a station can come to: nothing, if it is to share the cache of a station that is
not there; else one more station, with the cache of another or with the first one that is not in
use. -/
theorem Exchange.Tidy.openStation_cases (h : x.Tidy) (v : Option Inventory)
    (config : Configuration) (share : Option Nat) :
    (x.openStation v config share).1 = x ∨
    ∃ s size, (x.openStation v config share).1 = ⟨x.stations ++ [s], size, x.caches⟩ ∧
      x.size ≤ size ∧ s.cache < size := by
  cases share with
  | none =>
    -- The cache that is opened is empty already, so to empty it changes nothing.
    have hcaches : (fun j => if j = x.size then "" else x.caches j) = x.caches := by
      funext j
      split
      · next hj => rw [h.caches_eq j hj.ge]
      · rfl
    refine .inr ⟨⟨(v.map Catalog.ofInventory).getD .empty, {}, config, x.size⟩, x.size + 1, ?_,
      Nat.le_succ _, Nat.lt_succ_self _⟩
    simp only [openStation, push, setCache, hcaches]
  | some n =>
    cases hs : x.stations[n]? with
    | none => exact .inl (by rw [openStation, hs])
    | some s =>
      have hlt : s.cache < x.size := h.cache_lt s (List.mem_of_getElem? hs)
      refine .inr ⟨⟨(v.map Catalog.ofInventory).getD .empty, {}, config, s.cache⟩, x.size, ?_,
        le_rfl, hlt⟩
      rw [openStation, hs]
      rfl

/-- An exchange stays tidy. -/
theorem Exchange.Tidy.step (h : x.Tidy) (step : Step) : (x.step step).1.Tidy := by
  cases step with
  | start v config share =>
    rw [Exchange.step]
    rcases h.openStation_cases v config share with hx | ⟨s, size, hx, hsize, hs⟩
    · rwa [hx]
    · rw [hx]
      refine ⟨fun s' hs' => ?_, fun i hi => h.caches_eq i (hsize.trans hi)⟩
      rcases List.mem_append.1 hs' with hs' | hs'
      · exact (h.cache_lt s' hs').trans_le hsize
      · rwa [List.mem_singleton.1 hs']
  | ask n r =>
    rw [Exchange.step]
    cases hs : x.stations[n]? with
    | none => rwa [ask_of_none hs]
    | some s =>
      have hlt : s.cache < x.size := h.cache_lt s (List.mem_of_getElem? hs)
      rw [ask_of_some hs]
      refine ⟨fun s' hs' => ?_, fun i hi => ?_⟩
      · rcases List.mem_or_eq_of_mem_set hs' with hs' | rfl
        · exact h.cache_lt s' hs'
        · rwa [Station.cache_update]
      · have hne : i ≠ s.cache := (hlt.trans_le hi).ne'
        exact (Function.update_of_ne hne _ _).trans (h.caches_eq i hi)

/-- The caches after a step are those after its turn, if it is one. -/
theorem Exchange.Tidy.caches_step (h : x.Tidy) (step : Step) : (x.step step).1.caches =
    (x.turn? step).toList.foldl (fun caches t => t.after caches) x.caches := by
  cases step with
  | start v config share =>
    rw [Exchange.step]
    rcases h.openStation_cases v config share with hx | ⟨s, size, hx, -⟩ <;> rw [hx] <;> rfl
  | ask n r =>
    rw [Exchange.step, turn?]
    cases hs : x.stations[n]? with
    | none => rw [ask_of_none hs]; rfl
    | some s =>
      rw [ask_of_some hs, Option.bind_some, Station.keep_eq]
      cases r.demand? with
      | none => exact Function.update_eq_self _ _
      | some d => rfl

/-- The reply to a step that is a turn is the reply of the turn. -/
theorem Exchange.reply_of_turn? {step : Step} (h : x.turn? step = some t) :
    (x.step step).2 = t.reply (x.caches t.cache) := by
  cases step with
  | start => cases h
  | ask n r =>
    obtain ⟨s, hs, hd⟩ := Option.bind_eq_some_iff.1 h
    obtain ⟨d, hr, rfl⟩ := Option.map_eq_some_iff.1 hd
    rw [Exchange.step, ask_of_some hs]
    exact Station.reply_eq _ hr

/-- The caches after a run are those after its turns. -/
theorem Exchange.Tidy.caches_run (h : x.Tidy) (steps : List Step) : (x.run steps).1.caches =
    (x.turns steps).foldl (fun caches t => t.after caches) x.caches := by
  -- Turns carry their stations as they stand, so the exchange is not fixed in the induction.
  induction steps generalizing x with
  | nil => rfl
  | cons step steps ih =>
    rw [turns, List.foldl_append, ← h.caches_step, ← ih (h.step step)]
    rfl

/-- An exchange stays tidy over a run. -/
theorem Exchange.Tidy.run (h : x.Tidy) (steps : List Step) : (x.run steps).1.Tidy := by
  induction steps generalizing x with
  | nil => exact h
  | cons step steps ih => exact ih (h.step step)

/-- An exchange without stations is tidy. -/
theorem Exchange.tidy_empty : ({} : Exchange).Tidy :=
  ⟨fun _ hs => absurd hs List.not_mem_nil, fun _ _ => rfl⟩

/-! ## What is served -/

/-- A dialplan that is renewed is what the reply gives, above the footer. -/
theorem Turn.reply_of_refresh_eq_ok {timing : Timing} {text : String} (held : String)
    (hd : t.demand = .dialplan timing) (h : t.service.refresh = .ok text) :
    t.reply held = .dialplan (text ++ timing.footer) := by
  simp only [reply, hd, Service.respond, Service.serve, h]

/-- A dialplan that is not renewed leaves what the cache holds for the reply, below the warning. -/
theorem Turn.reply_of_refresh_eq_error {timing : Timing} {err : CompileError} (held : String)
    (hd : t.demand = .dialplan timing) (h : t.service.refresh = .error err) :
    t.reply held = .dialplan (cacheWarning ++ held ++ timing.footer) := by
  simp only [reply, hd, Service.respond, Service.serve, h]

/-- **A cache always holds the last good dialplan.** After any turns it holds the text of the last
one among those that renewed a dialplan with it or put a text into it, and nothing if there was
none. A turn that renews a dialplan gives this very text above its footer; one that cannot, for
whatever error, gives the warning, what the cache held before, and its footer, and leaves all caches
as they are. So do demands for a script, whether it compiles or not, and for what the cache holds.
The steps of an exchange, whose stations change and share caches as they go, are such turns. -/
theorem caches_hold_last_good (ts : List Turn) (t : Turn) (steps : List Step) :
    (∀ i, cachesAfter ts i = lastGood i ts) ∧
    (∀ timing text, t.demand = .dialplan timing → t.service.refresh = .ok text →
      t.reply (cachesAfter ts t.cache) = .dialplan (text ++ timing.footer)) ∧
    (∀ timing err, t.demand = .dialplan timing → t.service.refresh = .error err →
      t.reply (cachesAfter ts t.cache) =
        .dialplan (cacheWarning ++ lastGood t.cache ts ++ timing.footer) ∧
      cachesAfter (ts ++ [t]) = cachesAfter ts) ∧
    (∀ i, t.demand = .script i →
      t.reply (cachesAfter ts t.cache) = .body (t.service.compileScript i) ∧
      cachesAfter (ts ++ [t]) = cachesAfter ts) ∧
    (t.demand = .cached →
      t.reply (cachesAfter ts t.cache) = .cache (lastGood t.cache ts) ∧
      cachesAfter (ts ++ [t]) = cachesAfter ts) ∧
    let x := (({} : Exchange).run steps).1
    (∀ i, x.caches i = lastGood i (({} : Exchange).turns steps)) ∧
    ∀ step u, x.turn? step = some u →
      (x.step step).2 = u.reply (x.caches u.cache) ∧
      (x.step step).1.caches = u.after x.caches := by
  have hunwritten : t.written? t.cache = none → cachesAfter (ts ++ [t]) = cachesAfter ts := by
    intro h
    rw [cachesAfter_concat, Turn.after_eq_self h]
  have htidy : (({} : Exchange).run steps).1.Tidy := Exchange.tidy_empty.run steps
  refine ⟨cachesAfter_eq ts, fun timing text => Turn.reply_of_refresh_eq_ok _,
    fun timing err hd h => ⟨?_, hunwritten ?_⟩, fun i hd => ⟨?_, hunwritten ?_⟩,
    fun hd => ⟨?_, hunwritten ?_⟩, fun i => ?_, fun step u h => ⟨Exchange.reply_of_turn? h, ?_⟩⟩
  · rw [cachesAfter_eq, Turn.reply_of_refresh_eq_error _ hd h]
  · simp [Turn.written?, hd, h, Except.toOption]
  · simp only [Turn.reply, hd]
  · simp [Turn.written?, hd]
  · simp only [Turn.reply, hd, cachesAfter_eq]
  · simp [Turn.written?, hd]
  · rw [Exchange.tidy_empty.caches_run steps, ← cachesAfter_eq]
    rfl
  · rw [htidy.caches_step, h]
    rfl

end

end CallFlow
