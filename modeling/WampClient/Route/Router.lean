import WampClient.Route.Key

/-! A router hands each message that comes in to the routes that wait for it. Routes are listed in
the order in which they were added, and indexed in two levels: by kind of key, then by id. The
lists of the index are kept in the same order, and empty ones are taken out. -/
namespace WampClient

namespace Assoc

variable {κ α : Type} [DecidableEq κ]

def get? (key : κ) : List (κ × α) → Option α
  | [] => none
  | (k, a) :: rest => if k = key then some a else get? key rest

/-- Changes the value under a key; `none` on either side stands for no value. -/
def alter (key : κ) (f : Option α → Option α) : List (κ × α) → List (κ × α)
  | [] => ((f none).map fun a => (key, a)).toList
  | (k, a) :: rest =>
    if k = key then ((f (some a)).map fun a => (k, a)).toList ++ rest
    else (k, a) :: alter key f rest

def erase (key : κ) (entries : List (κ × α)) : List (κ × α) := entries.filter fun e => e.1 ≠ key

end Assoc

/-- Names a route for as long as the router lives; later routes have greater handles. -/
abbrev Handle := Nat

structure Route (H : Type) where
  handle : Handle
  keys : List RouteKey
  handler : H
  deriving Repr

/-- The handles of one kind: those without an id, and those of each id. -/
structure RouteNode where
  general : List Handle
  byId : List (Id × List Handle)
  deriving DecidableEq, Repr

namespace RouteNode

def empty : RouteNode := ⟨[], []⟩

def isEmpty (n : RouteNode) : Bool := n.general.isEmpty && n.byId.isEmpty

def add (n : RouteNode) (id : Option Id) (h : Handle) : RouteNode :=
  match id with
  | none => { n with general := n.general ++ [h] }
  | some i => { n with byId := Assoc.alter i (fun hs => some (hs.getD [] ++ [h])) n.byId }

/-- The handles without the given one, or nothing if none is left. -/
def without (h : Handle) (handles : List Handle) : Option (List Handle) :=
  let left := handles.filter fun g => g ≠ h
  if left.isEmpty then none else some left

def remove (n : RouteNode) (id : Option Id) (h : Handle) : RouteNode :=
  match id with
  | none => { n with general := n.general.filter fun g => g ≠ h }
  | some i => { n with byId := Assoc.alter i (fun hs => hs.bind (without h)) n.byId }

/-- Puts a handle behind the others unless it is among them. -/
def includeHandle (handles : List Handle) (h : Handle) : List Handle :=
  if handles.contains h then handles else handles ++ [h]

/-- The handles that a message with the id goes to: the general ones, then those of the id that
are not there yet, for a route may be listed in both places. -/
def matching (n : RouteNode) (id : Option Id) : List Handle :=
  ((id.bind fun i => Assoc.get? i n.byId).getD []).foldl includeHandle n.general

end RouteNode

structure Router (H : Type) where
  lastHandle : Nat
  routes : List (Route H)
  index : List (RouteKind × RouteNode)
  deriving Repr

namespace Router

variable {H σ : Type}

def empty : Router H := ⟨0, [], []⟩

instance : Inhabited (Router H) := ⟨empty⟩

def size (r : Router H) : Nat := r.routes.length

def isEmpty (r : Router H) : Bool := r.routes.isEmpty

def route? (r : Router H) (h : Handle) : Option (Route H) := r.routes.find? fun x => x.handle == h

def indexKey (h : Handle) (index : List (RouteKind × RouteNode)) (key : RouteKey) :
    List (RouteKind × RouteNode) :=
  Assoc.alter key.kind (fun n => some ((n.getD RouteNode.empty).add key.id h)) index

/-- Takes a handle out from under a key, and the node with it if nothing is left there. -/
def unindexKey (h : Handle) (index : List (RouteKind × RouteNode)) (key : RouteKey) :
    List (RouteKind × RouteNode) :=
  Assoc.alter key.kind (fun n => n.bind fun n =>
    let n := n.remove key.id h
    if n.isEmpty then none else some n) index

/-- Adds a route under all of the keys. -/
def add (r : Router H) (keys : List RouteKey) (handler : H) : Router H × Handle :=
  let h := r.lastHandle + 1
  (⟨h, r.routes ++ [⟨h, keys, handler⟩], keys.foldl (indexKey h) r.index⟩, h)

/-- Removes a route and gives its handler back, if there is such a route. -/
def remove (r : Router H) (h : Handle) : Router H × Option H :=
  match r.route? h with
  | none => (r, none)
  | some x =>
    ({ r with routes := r.routes.filter fun y => y.handle ≠ h,
              index := x.keys.foldl (unindexKey h) r.index },
     some x.handler)

def erase (r : Router H) (h : Handle) : Router H := (r.remove h).1

def replace (r : Router H) (h : Handle) (handler : H) : Router H :=
  { r with routes := r.routes.map fun x => if x.handle = h then { x with handler } else x }

/-- The handles under which a key is looked up. -/
def matching (r : Router H) (key : RouteKey) : List Handle :=
  ((Assoc.get? key.kind r.index).map fun n => n.matching key.id).getD []

/-- What comes of handing a message to one handler: the handler after it, whether the route stays,
and the state that goes on to the next one. -/
structure Visit (H σ : Type) where
  handler : H
  stays : Bool
  state : σ

/-- Visits one route, unless it is gone by now. -/
def visit (deliver : Handle → H → σ → Visit H σ) (acc : Router H × Bool × σ) (h : Handle) :
    Router H × Bool × σ :=
  let (r, matched, s) := acc
  match r.route? h with
  | none => (r, matched, s)
  | some x =>
    let v := deliver h x.handler s
    let r := r.replace h v.handler
    (if v.stays then r else r.erase h, true, v.state)

/-- Hands a message to every route that waits for it, those without an id first. Tells whether
there was one. -/
def dispatch (r : Router H) (key : RouteKey) (deliver : Handle → H → σ → Visit H σ) (s : σ) :
    Router H × Bool × σ :=
  (r.matching key).foldl (visit deliver) (r, false, s)

/-- Changes every handler. -/
def mapHandlers (r : Router H) (f : Handle → H → H) : Router H :=
  { r with routes := r.routes.map fun x => { x with handler := f x.handle x.handler } }

/-- Removes every route. Handles are not used again. -/
def clear (r : Router H) : Router H := { r with routes := [], index := [] }

end Router

end WampClient
