import CallFlow.Service

/-!
# Exchanges

An exchange runs several stations side by side. A station is a service whose catalog, outages and
settings can be changed while it runs, and a cache. Stations may share a cache; then what one of
them keeps is what the others serve when they fail.
-/

namespace CallFlow

/-- A service at work. `cache` is the number of its cache. -/
structure Station where
  catalog : Catalog := .empty
  outages : Outages := {}
  config : Configuration := {}
  cache : Nat

/-- What a station can be asked for. -/
inductive Request where
  | load (inventory : Inventory)
  | insertScript (script : Script)
  | pushContext (context : Context)
  | setHost (host : String)
  | failContexts (error : Option StoreError)
  | failScript (id : ScriptId) (error : Option StoreError)
  | failOtherScripts (error : Option StoreError)
  | loadScript (id : ScriptId)
  | loadContexts
  | compileScript (id : ScriptId)
  | dialplan (timing : Timing)
  | setCache (text : String)
  | readCache
deriving DecidableEq, Repr

/-- What an exchange answers. -/
inductive Reply where
  | done
  | opened (station : Nat)
  | script (result : Except StoreError Script)
  | contexts (result : Except StoreError (List Context))
  | body (result : Except CompileError String)
  | dialplan (text : String)
  | cache (text : String)
  | noStation

namespace Station

/-- The store that the station works with. -/
def store (s : Station) : Store :=
  s.outages.cover s.catalog.store

/-- The station as a service. -/
def service (s : Station) : Service :=
  ⟨s.store, s.config⟩

/-- The station after a request. -/
def update (s : Station) : Request → Station
  | .load v => { s with catalog := .ofInventory v }
  | .insertScript x => { s with catalog := s.catalog.insertScript x }
  | .pushContext c => { s with catalog := s.catalog.pushContext c }
  | .setHost h => { s with config := { s.config with host := h } }
  | .failContexts e => { s with outages := { s.outages with contexts := e } }
  | .failScript i e => { s with outages := s.outages.setScript i e }
  | .failOtherScripts e => { s with outages := { s.outages with otherScripts := e } }
  | _ => s

/-- What the station's cache holds after a request. -/
def keep (s : Station) (cached : String) : Request → String
  | .dialplan _ => s.service.keep cached
  | .setCache text => text
  | _ => cached

/-- The reply to a request. -/
def reply (s : Station) (cached : String) : Request → Reply
  | .loadScript i => .script (s.store.loadScript i)
  | .loadContexts => .contexts s.store.loadContexts
  | .compileScript i => .body (s.service.compileScript i)
  | .dialplan t => .dialplan (s.service.respond cached t)
  | .readCache => .cache cached
  | _ => .done

/-- The events of a request. -/
def events (s : Station) (cached : String) : Request → List Event
  | .load v => [(Catalog.ofInventory v).event]
  | .compileScript i => s.service.compileScriptEvents i
  | .dialplan _ => s.service.serveEvents cached
  | _ => []

end Station

/-- Stations, and what their caches hold. -/
structure Exchange where
  stations : List Station := []
  /-- The number of caches that are in use. -/
  size : Nat := 0
  caches : Nat → String := fun _ => ""

/-- What can be done with an exchange: to open a station, with a cache of its own or with that of
another station, and to ask a station. A station may be opened without an inventory. -/
inductive Step where
  | start (inventory : Option Inventory) (config : Configuration) (share : Option Nat)
  | ask (station : Nat) (request : Request)
deriving DecidableEq, Repr

namespace Exchange

/-- The exchange with a text in a cache. -/
def setCache (x : Exchange) (i : Nat) (text : String) : Exchange :=
  { x with caches := fun j => if j = i then text else x.caches j }

/-- The exchange with one more station, last, that uses a cache. -/
def push (x : Exchange) (v : Option Inventory) (config : Configuration) (cache : Nat) : Exchange :=
  let catalog := (v.map Catalog.ofInventory).getD .empty
  { x with stations := x.stations ++ [{ catalog, config, cache }] }

/-- Opens a station. -/
def openStation (x : Exchange) (v : Option Inventory) (config : Configuration) :
    Option Nat → Exchange × Reply
  | none =>
    ({ (x.push v config x.size).setCache x.size "" with size := x.size + 1 },
      .opened x.stations.length)
  | some t =>
    match x.stations[t]? with
    | some s => (x.push v config s.cache, .opened x.stations.length)
    | none => (x, .noStation)

/-- Asks a station. -/
def ask (x : Exchange) (t : Nat) (r : Request) : Exchange × Reply :=
  match x.stations[t]? with
  | none => (x, .noStation)
  | some s =>
    let cached := x.caches s.cache
    ({ x.setCache s.cache (s.keep cached r) with stations := x.stations.set t (s.update r) },
      s.reply cached r)

/-- Takes one step. -/
def step (x : Exchange) : Step → Exchange × Reply
  | .start v config share => x.openStation v config share
  | .ask t r => x.ask t r

/-- The events of a step. -/
def events (x : Exchange) : Step → List Event
  | .start v _ _ => (v.map fun v => (Catalog.ofInventory v).event).toList
  | .ask t r =>
    match x.stations[t]? with
    | none => []
    | some s => s.events (x.caches s.cache) r

/-- Takes steps one after the other and gives the replies in order. -/
def run (x : Exchange) : List Step → Exchange × List Reply
  | [] => (x, [])
  | s :: ss =>
    let (x, r) := x.step s
    let (x, rs) := run x ss
    (x, r :: rs)

end Exchange

/-- A cache in words. -/
def describeCache (text : String) : String :=
  "CompiledCache \x7b bytes: " ++ text.utf8ByteSize.repr ++ " \x7d"

end CallFlow
