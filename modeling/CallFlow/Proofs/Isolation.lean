import CallFlow.Proofs.Cache
import Mathlib.Data.List.Basic

/-!
# What services see of each other

Services meet only in the caches that they share, and what a cache holds is what was last written to
it. So a run can be thinned out: turns on other caches and turns that write nothing can be left out,
and no turn that remains on a cache can tell (`Thinned`, `Thinned.lastGood_eq`). The times at which
the remaining turns are answered may differ; then the answers differ in their footers only
(`Turn.Again.reply`). The same holds of the steps of an exchange, where what is left out may also
change the catalog, the outages or the settings of a station with another cache: the two runs agree
on the stations that use the cache and on what it holds (`Exchange.Agrees`).
-/

namespace CallFlow

/-! ## Up to the time -/

/-- The same demand, perhaps at another time. -/
inductive Demand.Again : Demand → Demand → Prop
  | dialplan : Again (.dialplan timing) (.dialplan timing')
  | same : Again d d

/-- The same demand on the same service with the same cache, perhaps at another time. -/
structure Turn.Again (t t' : Turn) : Prop where
  service : t'.service = t.service
  cache : t'.cache = t.cache
  demand : t.demand.Again t'.demand

/-- The same request, perhaps at another time. -/
inductive Request.Again : Request → Request → Prop
  | dialplan : Again (.dialplan timing) (.dialplan timing')
  | same : Again r r

/-- The same step, perhaps at another time. -/
inductive Step.Again : Step → Step → Prop
  | start : Again (.start v config share) (.start v config share)
  | ask : r.Again r' → Again (.ask n r) (.ask n r')

/-- The same reply, up to the footer of a dialplan. -/
inductive Reply.Alike : Reply → Reply → Prop
  | dialplan (text : String) (timing timing' : Timing) :
      Alike (.dialplan (text ++ timing.footer)) (.dialplan (text ++ timing'.footer))
  | same : Alike r r

/-! ## Turns -/

/-- The turn asks for a script, for what its cache holds, or for a dialplan that is not renewed. -/
def Turn.Idle (t : Turn) : Prop :=
  (∃ i, t.demand = .script i) ∨ t.demand = .cached ∨
    ∃ timing err, t.demand = .dialplan timing ∧ t.service.refresh = .error err

/-- A run of turns of which some are left out. Each turn stands with what remains of it: a turn that
is left out is idle or uses another cache than `c`, and one that remains is the same demand again.
-/
structure Thinned (c : Nat) (run : List (Turn × Option Turn)) : Prop where
  left : ∀ t, (t, none) ∈ run → t.cache ≠ c ∨ t.Idle
  again : ∀ t t', (t, some t') ∈ run → t.Again t'

section
variable {c : Nat} {t t' : Turn} {run : List (Turn × Option Turn)}

/-- A turn writes to its own cache only. -/
theorem Turn.written?_of_ne (h : t.cache ≠ c) : t.written? c = none :=
  if_neg h

/-- An idle turn writes nothing. -/
theorem Turn.Idle.written? (h : t.Idle) : t.written? c = none := by
  unfold Turn.written?
  split
  · rcases h with ⟨i, hd⟩ | hd | ⟨timing, err, hd, hr⟩
    · rw [hd]
    · rw [hd]
    · rw [hd, hr]
      rfl
  · rfl

/-- A turn writes the same at another time. -/
theorem Turn.Again.written? (h : t.Again t') : t'.written? c = t.written? c := by
  obtain ⟨service, cache, demand⟩ := t
  obtain ⟨service', cache', demand'⟩ := t'
  obtain ⟨hs, hc, hd⟩ := h
  dsimp only at hs hc hd
  subst hs hc
  cases hd <;> rfl

/-- A turn is answered the same at another time, up to the footer. -/
theorem Turn.Again.reply (h : t.Again t') (held : String) :
    (t.reply held).Alike (t'.reply held) := by
  obtain ⟨service, cache, demand⟩ := t
  obtain ⟨service', cache', demand'⟩ := t'
  obtain ⟨hs, -, hd⟩ := h
  dsimp only at hs hd
  subst hs
  cases hd with
  | dialplan => exact .dialplan _ _ _
  | same => exact .same

/-- What remains of a turn in a thinned run writes to the cache what the turn writes. -/
theorem Thinned.written? (h : Thinned c run) {p : Turn × Option Turn} (hp : p ∈ run) :
    p.2.bind (Turn.written? c) = p.1.written? c := by
  obtain ⟨t, _ | t'⟩ := p
  · rcases h.left t hp with hc | hi
    · exact (Turn.written?_of_ne hc).symm
    · exact hi.written?.symm
  · exact (h.again t t' hp).written?

/-- The text that was last written to the cache is the same in a thinned run. -/
theorem Thinned.lastGood_eq (h : Thinned c run) :
    lastGood c (run.filterMap (·.2)) = lastGood c (run.map (·.1)) := by
  unfold lastGood
  rw [List.filterMap_filterMap, List.filterMap_map,
    List.filterMap_congr fun p hp => h.written? hp]
  rfl

/-- The first part of a thinned run is thinned. -/
theorem Thinned.of_append {before after : List (Turn × Option Turn)}
    (h : Thinned c (before ++ after)) : Thinned c before :=
  ⟨fun t ht => h.left t (List.mem_append_left _ ht),
    fun t t' ht => h.again t t' (List.mem_append_left _ ht)⟩

end

/-! ## Exchanges -/

/-- What can be seen of a station from the cache `c`: which cache it uses, and all of it if it uses
this one. -/
def Station.view (c : Nat) (s : Station) : Nat × Option Station :=
  (s.cache, if s.cache = c then some s else none)

namespace Exchange

/-- Two exchanges agree on all that can be seen from the cache `c`: what it holds, and the stations
that use it. -/
structure Agrees (c : Nat) (x x' : Exchange) : Prop where
  size : x'.size = x.size
  held : x'.caches c = x.caches c
  stations : x'.stations.map (Station.view c) = x.stations.map (Station.view c)

/-- The step asks a station that uses the cache `c`. -/
def Uses (x : Exchange) (c : Nat) (step : Step) : Prop :=
  ∃ n r s, step = .ask n r ∧ x.stations[n]? = some s ∧ s.cache = c

/-- The step can be left out as far as the cache `c` goes: it asks a station that uses another one,
or it is an idle turn. -/
def Spares (x : Exchange) (c : Nat) (step : Step) : Prop :=
  ∃ n r s, step = .ask n r ∧ x.stations[n]? = some s ∧
    (s.cache ≠ c ∨ ∃ d, r.demand? = some d ∧ Turn.Idle ⟨s.service, s.cache, d⟩)

/-- A run of steps of which some are left out, each step with what remains of it. -/
structure ThinnedSteps (c : Nat) (steps : List (Step × Option Step)) : Prop where
  left : ∀ before step after, steps = before ++ (step, none) :: after →
    (({} : Exchange).run (before.map (·.1))).1.Spares c step
  again : ∀ step step', (step, some step') ∈ steps → step.Again step'

end Exchange

section
variable {c n : Nat} {x x' x'' : Exchange} {s s' : Station} {r r' : Request} {k k' : Step}

/-- Stations that look the same use the same cache, and are the same if it is the one from which
they are seen. -/
theorem Station.view_inj (h : s'.view c = s.view c) :
    s'.cache = s.cache ∧ (s.cache = c → s' = s) := by
  obtain ⟨hcache, hsame⟩ := Prod.mk.inj h
  refine ⟨hcache, fun hc => ?_⟩
  rw [hcache, if_pos hc, if_pos hc] at hsame
  exact Option.some_inj.1 hsame

/-- From another cache no request changes how a station looks. -/
theorem Station.view_update (h : s.cache ≠ c) (r : Request) : (s.update r).view c = s.view c := by
  rw [view, view, cache_update, if_neg h, if_neg h]

/-- A station does not change, keeps the same and replies the same when it is asked at another time.
-/
theorem Request.Again.station (h : r.Again r') (s : Station) (held : String) :
    s.update r' = s.update r ∧ s.keep held r' = s.keep held r ∧
      (s.reply held r).Alike (s.reply held r') := by
  cases h with
  | dialplan => exact ⟨rfl, rfl, .dialplan _ _ _⟩
  | same => exact ⟨rfl, rfl, .same⟩

/-- To put a member of a list where it stands changes nothing. -/
theorem set_of_getElem? {α : Type} {as : List α} {a : α} (h : as[n]? = some a) :
    as.set n a = as := by
  obtain ⟨hlt, rfl⟩ := List.getElem?_eq_some_iff.1 h
  exact List.set_getElem_self hlt

/-- An idle turn changes nothing in its exchange. -/
theorem Exchange.ask_of_idle {d : Demand} (hs : x.stations[n]? = some s) (hd : r.demand? = some d)
    (h : Turn.Idle ⟨s.service, s.cache, d⟩) : (x.ask n r).1 = x := by
  have hupdate : s.update r = s := by
    cases r <;> first | rfl | cases hd
  have hkeep : s.keep (x.caches s.cache) r = x.caches s.cache := by
    rw [Station.keep_eq, hd]
    dsimp only
    rw [Turn.keep_eq, h.written?, Option.getD_none]
  rw [ask_of_some hs, hupdate, hkeep, Function.update_eq_self, set_of_getElem? hs]

namespace Exchange.Agrees

/-- An exchange agrees with itself. -/
theorem refl (x : Exchange) : Agrees c x x :=
  ⟨rfl, rfl, rfl⟩

/-- Agreement goes both ways. -/
theorem symm (h : Agrees c x x') : Agrees c x' x :=
  ⟨h.size.symm, h.held.symm, h.stations.symm⟩

/-- Agreement carries over. -/
theorem trans (h : Agrees c x x') (h' : Agrees c x' x'') : Agrees c x x'' :=
  ⟨h'.size.trans h.size, h'.held.trans h.held, h'.stations.trans h.stations⟩

/-- Exchanges that agree have their stations in the same places, with the same caches, and have the
very same ones where they use the cache. -/
theorem exists_station (h : Agrees c x x') (hs : x.stations[n]? = some s) :
    ∃ s', x'.stations[n]? = some s' ∧ s'.cache = s.cache ∧ (s.cache = c → s' = s) := by
  have hget := congrArg (·[n]?) h.stations
  simp only [List.getElem?_map, hs, Option.map_some] at hget
  obtain ⟨s', hs', hview⟩ := Option.map_eq_some_iff.1 hget
  exact ⟨s', hs', Station.view_inj hview⟩

/-- Exchanges that agree have no station in the same places. -/
theorem getElem?_eq_none (h : Agrees c x x') (hs : x.stations[n]? = none) :
    x'.stations[n]? = none := by
  have hget := congrArg (·[n]?) h.stations
  simpa only [List.getElem?_map, hs, Option.map_none, Option.map_eq_none_iff] using hget

/-- A request to a station with another cache cannot be seen. -/
theorem ask_of_ne (hs : x.stations[n]? = some s) (hc : s.cache ≠ c) :
    Agrees c x (x.ask n r).1 := by
  rw [ask_of_some hs]
  refine ⟨rfl, Function.update_of_ne hc.symm _ _, ?_⟩
  have hview : (x.stations.map (Station.view c))[n]? = some ((s.update r).view c) := by
    rw [Station.view_update hc, List.getElem?_map, hs, Option.map_some]
  rw [List.map_set, set_of_getElem? hview]

/-- A step that is spared cannot be seen. -/
theorem of_spares (h : x.Spares c k) : Agrees c x (x.step k).1 := by
  obtain ⟨n, r, s, rfl, hs, hc | ⟨d, hd, hidle⟩⟩ := h
  · exact ask_of_ne hs hc
  · rw [Exchange.step, ask_of_idle hs hd hidle]
    exact .refl x

/-- Exchanges that agree still agree when the same station is asked in both. -/
theorem ask (h : Agrees c x x') (hr : r.Again r') : Agrees c (x.ask n r).1 (x'.ask n r').1 := by
  cases hs : x.stations[n]? with
  | none =>
    rw [ask_of_none hs, ask_of_none (h.getElem?_eq_none hs)]
    exact h
  | some s =>
    obtain ⟨s', hs', hcache, hsame⟩ := h.exists_station hs
    by_cases hc : s.cache = c
    · obtain rfl := hsame hc
      obtain ⟨hupdate, hkeep, -⟩ := hr.station s' (x.caches c)
      rw [ask_of_some hs, ask_of_some hs', hc, h.held, hupdate, hkeep]
      refine ⟨h.size, ?_, ?_⟩
      · dsimp only
        rw [Function.update_self, Function.update_self]
      · dsimp only
        rw [List.map_set, List.map_set, h.stations]
    -- What either station does cannot be seen, though they may do different things.
    · exact ((ask_of_ne hs hc).symm.trans h).trans (ask_of_ne hs' (hcache ▸ hc))

/-- Exchanges that agree still agree when the same station is opened in both. -/
theorem openStation (h : Agrees c x x') (v : Option Inventory) (config : Configuration)
    (share : Option Nat) :
    Agrees c (x.openStation v config share).1 (x'.openStation v config share).1 := by
  have hpush : ∀ cache, Agrees c (x.push v config cache) (x'.push v config cache) := fun cache =>
    ⟨h.size, h.held, by simp only [push, List.map_append, h.stations]⟩
  cases share with
  | none =>
    have hown := hpush x.size
    simp only [Exchange.openStation, setCache, h.size]
    refine ⟨rfl, ?_, hown.stations⟩
    dsimp only
    split
    · rfl
    · exact hown.held
  | some n =>
    cases hs : x.stations[n]? with
    | none =>
      simp only [Exchange.openStation, hs, h.getElem?_eq_none hs]
      exact h
    | some s =>
      obtain ⟨s', hs', hcache, -⟩ := h.exists_station hs
      simp only [Exchange.openStation, hs, hs', hcache]
      exact hpush s.cache

/-- Exchanges that agree still agree after the same step. -/
theorem step (h : Agrees c x x') (hk : k.Again k') :
    Agrees c (x.step k).1 (x'.step k').1 := by
  cases hk with
  | start => exact h.openStation _ _ _
  | ask hr => exact h.ask hr

/-- Exchanges that agree reply the same to a step on the cache, up to the footer. -/
theorem reply (h : Agrees c x x') (hk : k.Again k') (huses : x.Uses c k) :
    (x.step k).2.Alike (x'.step k').2 := by
  obtain ⟨n, r, s, rfl, hs, hc⟩ := huses
  obtain ⟨s', hs', -, hsame⟩ := h.exists_station hs
  obtain rfl := hsame hc
  cases hk with
  | ask hr =>
    rw [Exchange.step, Exchange.step, ask_of_some hs, ask_of_some hs', hc, h.held]
    exact (hr.station s' (x.caches c)).2.2

end Exchange.Agrees

/-- The exchange after one more step. -/
theorem Exchange.run_concat (x : Exchange) (steps : List Step) (step : Step) :
    (x.run (steps ++ [step])).1 = ((x.run steps).1.step step).1 := by
  induction steps generalizing x with
  | nil => rfl
  | cons s steps ih => exact ih (x.step s).1

/-- The first part of a thinned run of steps is thinned. -/
theorem Exchange.ThinnedSteps.of_append {before after : List (Step × Option Step)}
    (h : ThinnedSteps c (before ++ after)) : ThinnedSteps c before := by
  refine ⟨fun first step rest heq => h.left first step (rest ++ after) ?_,
    fun step step' hmem => h.again step step' (List.mem_append_left _ hmem)⟩
  rw [heq, List.append_assoc, List.cons_append]

/-- A thinned run of steps leaves an exchange that agrees with that of the whole run. -/
theorem Exchange.ThinnedSteps.agrees {steps : List (Step × Option Step)}
    (h : ThinnedSteps c steps) :
    Agrees c (({} : Exchange).run (steps.map (·.1))).1
      (({} : Exchange).run (steps.filterMap (·.2))).1 := by
  induction steps using List.reverseRecOn with
  | nil => exact .refl _
  | append_singleton steps p ih =>
    have hsteps := ih h.of_append
    have hmap : (steps ++ [p]).map (·.1) = steps.map (·.1) ++ [p.1] := by simp
    rw [hmap, run_concat]
    obtain ⟨step, _ | step'⟩ := p
    · have hfilter : (steps ++ [(step, (none : Option Step))]).filterMap (·.2) =
          steps.filterMap (·.2) := by simp
      rw [hfilter]
      exact (Agrees.of_spares (h.left steps step [] rfl)).symm.trans hsteps
    · have hfilter : (steps ++ [(step, some step')]).filterMap (·.2) =
          steps.filterMap (·.2) ++ [step'] := by simp
      rw [hfilter, run_concat]
      exact hsteps.step (h.again step step' (List.mem_append_right _ (List.mem_singleton_self _)))

/-- **Services are isolated from each other and from failed renewals.** Leave out of a run of turns
any that use another cache, and any that ask for a script, for what their cache holds, or for a
dialplan that is not renewed. Each turn that remains sees the store and the settings that it saw,
perhaps at another time. Then it gets the same reply on the cache, up to the footer of a dialplan,
and in the end the cache holds the same. The same is true of the steps of an exchange, of which any
that ask stations with another cache can be left out. -/
theorem services_are_isolated (c : Nat) :
    (∀ run : List (Turn × Option Turn), Thinned c run →
      cachesAfter (run.filterMap (·.2)) c = cachesAfter (run.map (·.1)) c ∧
      ∀ before t t' after, run = before ++ (t, some t') :: after → t.cache = c →
        (t.reply (cachesAfter (before.map (·.1)) t.cache)).Alike
          (t'.reply (cachesAfter (before.filterMap (·.2)) t'.cache))) ∧
    ∀ steps : List (Step × Option Step), Exchange.ThinnedSteps c steps →
      (({} : Exchange).run (steps.filterMap (·.2))).1.caches c =
        (({} : Exchange).run (steps.map (·.1))).1.caches c ∧
      ∀ before step step' after, steps = before ++ (step, some step') :: after →
        let x := (({} : Exchange).run (before.map (·.1))).1
        let x' := (({} : Exchange).run (before.filterMap (·.2))).1
        x.Uses c step → (x.step step).2.Alike (x'.step step').2 := by
  refine ⟨fun run h => ⟨?_, fun before t t' after heq hc => ?_⟩,
    fun steps h => ⟨h.agrees.held, fun before step step' after heq => ?_⟩⟩
  · rw [cachesAfter_eq, cachesAfter_eq, h.lastGood_eq]
  · subst heq
    have hmem : (t, some t') ∈ before ++ (t, some t') :: after :=
      List.mem_append_right _ List.mem_cons_self
    have hagain := h.again t t' hmem
    rw [hagain.cache, hc, cachesAfter_eq, cachesAfter_eq, h.of_append.lastGood_eq]
    exact hagain.reply _
  · subst heq
    have hmem : (step, some step') ∈ before ++ (step, some step') :: after :=
      List.mem_append_right _ List.mem_cons_self
    exact h.of_append.agrees.reply (h.again step step' hmem)

end

/-- A service whose store is down. -/
def Service.down : Service where
  store := ⟨fun i => .error (.scriptNotFound i), .error (.unavailable "down")⟩

/-- Two stations with a cache each, the first of which loses its contexts. What the second one is
asked is left out, and so is one dialplan of the first that is not renewed. The other one is asked
for at another time. -/
def Exchange.outage : List (Step × Option Step) :=
  let opened : Step := .start none {} none
  let put : Step := .ask 0 (.setCache "[in]")
  let cut : Step := .ask 0 (.failContexts (some (.unavailable "down")))
  [(opened, some opened), (opened, some opened), (put, some put), (cut, some cut),
    (.ask 1 (.setCache "[out]"), none), (.ask 0 (.dialplan ⟨3, "now"⟩), none),
    (.ask 0 (.dialplan ⟨5, "soon"⟩), some (.ask 0 (.dialplan ⟨9, "later"⟩)))]

/-- What is left out can be spared, and the rest is asked again. -/
theorem Exchange.thinned_outage : ThinnedSteps 0 outage := by
  constructor
  · intro before step after heq
    -- Only the fifth and the sixth step are left out.
    rcases before with _ | ⟨_, _ | ⟨_, _ | ⟨_, _ | ⟨_, _ | ⟨_, _ | ⟨_, _ | ⟨_, before⟩⟩⟩⟩⟩⟩⟩ <;>
      simp only [outage, List.nil_append, List.cons_append, List.cons.injEq, Prod.mk.injEq,
        reduceCtorEq, List.nil_eq, List.append_eq_nil_iff, and_false, false_and] at heq
    · obtain ⟨rfl, rfl, rfl, rfl, ⟨rfl, -⟩, -⟩ := heq
      exact ⟨1, _, _, rfl, rfl, .inl Nat.one_ne_zero⟩
    · obtain ⟨rfl, rfl, rfl, rfl, rfl, ⟨rfl, -⟩, -⟩ := heq
      exact ⟨0, _, _, rfl, rfl, .inr ⟨_, rfl, .inr (.inr ⟨_, _, rfl, rfl⟩)⟩⟩
  · intro step step' hmem
    simp only [outage, List.mem_cons, Prod.mk.injEq, Option.some.injEq, reduceCtorEq, and_false,
      List.not_mem_nil, or_false, false_or] at hmem
    rcases hmem with ⟨rfl, rfl⟩ | ⟨rfl, rfl⟩ | ⟨rfl, rfl⟩ | ⟨rfl, rfl⟩ | ⟨rfl, rfl⟩
    · exact .start
    · exact .start
    · exact .ask .same
    · exact .ask .same
    · exact .ask .dialplan

/-- In a run of turns a text that is put into another cache and a dialplan that is not renewed are
left out, and what the cache holds is read once more, with the same reply. In an exchange the
dialplan that remains is answered from what the cache held, at either time. -/
theorem Service.down_is_isolated :
    let put : Turn := ⟨down, 0, .put "[in]"⟩
    let other : Turn := ⟨down, 1, .put "[out]"⟩
    let failed : Turn := ⟨down, 0, .dialplan ⟨3, "now"⟩⟩
    let read : Turn := ⟨down, 0, .cached⟩
    let run := [(put, some put), (other, none), (failed, none), (read, some read)]
    let x := (({} : Exchange).run ((Exchange.outage.take 6).map (·.1))).1
    let x' := (({} : Exchange).run ((Exchange.outage.take 6).filterMap (·.2))).1
    (Thinned 0 run ∧ cachesAfter [put, read] 0 = cachesAfter [put, other, failed, read] 0 ∧
      (read.reply (cachesAfter [put, other, failed] 0)).Alike
        (read.reply (cachesAfter [put] 0))) ∧
    Exchange.ThinnedSteps 0 Exchange.outage ∧
      (({} : Exchange).run (Exchange.outage.filterMap (·.2))).1.caches 0 =
        (({} : Exchange).run (Exchange.outage.map (·.1))).1.caches 0 ∧
      (x.step (.ask 0 (.dialplan ⟨5, "soon"⟩))).2.Alike
        (x'.step (.ask 0 (.dialplan ⟨9, "later"⟩))).2 := by
  intro put other failed read run x x'
  have hthinned : Thinned 0 run := by
    constructor
    · intro t ht
      have hcases : t = other ∨ t = failed := by simpa [run] using ht
      rcases hcases with rfl | rfl
      · exact .inl (by decide)
      · exact .inr (.inr (.inr ⟨_, _, rfl, rfl⟩))
    · intro t t' ht
      have hcases : (t = put ∧ t' = put) ∨ t = read ∧ t' = read := by simpa [run] using ht
      rcases hcases with ⟨rfl, rfl⟩ | ⟨rfl, rfl⟩ <;> exact ⟨rfl, rfl, .same⟩
  have hturns := (services_are_isolated 0).1 run hthinned
  have hsteps := (services_are_isolated 0).2 Exchange.outage Exchange.thinned_outage
  have huses : x.Uses 0 (.ask 0 (.dialplan ⟨5, "soon"⟩)) := ⟨0, _, _, rfl, rfl, rfl⟩
  exact ⟨⟨hthinned, hturns.1, hturns.2 [(put, some put), (other, none), (failed, none)] read read []
    rfl rfl⟩, Exchange.thinned_outage, hsteps.1, hsteps.2 _ _ _ [] rfl huses⟩

end CallFlow
