/-! # Feeds

A feed yields items one after the other, each when it is asked for, until it is done or a fault
stops it. So what lies behind the items that are taken is never looked at, and a feed may be longer
than anybody would want it.
-/

namespace ImageAudit

/-- Items that come one after the other. -/
inductive Feed (ε α : Type) where
  | done
  | failed (fault : ε)
  | item (value : α) (rest : Unit → Feed ε α)

namespace Feed

def single (value : α) : Feed ε α := item value fun _ => done

def ofList : List α → Feed ε α
  | [] => done
  | value :: rest => item value fun _ => ofList rest

/-- The items of a list, unless there is a fault. -/
def ofExcept : Except ε (List α) → Feed ε α
  | .ok items => ofList items
  | .error fault => failed fault

/-- The items of a feed, and then those of another one. -/
def append : Feed ε α → (Unit → Feed ε α) → Feed ε α
  | done, after => after ()
  | failed fault, _ => failed fault
  | item value rest, after => item value fun _ => (rest ()).append after

/-- The items of the feeds that are made of items. -/
def bind : Feed ε α → (α → Feed ε β) → Feed ε β
  | done, _ => done
  | failed fault, _ => failed fault
  | item value rest, next => (next value).append fun _ => (rest ()).bind next

def map (change : α → β) : Feed ε α → Feed ε β
  | done => done
  | failed fault => failed fault
  | item value rest => item (change value) fun _ => (rest ()).map change

/-- The items that pass a test, which may fail. -/
def filter (test : α → Except ε Bool) : Feed ε α → Feed ε α
  | done => done
  | failed fault => failed fault
  | item value rest =>
    match test value with
    | .error fault => failed fault
    | .ok true => item value fun _ => (rest ()).filter test
    | .ok false => (rest ()).filter test

def take : Nat → Feed ε α → Feed ε α
  | 0, _ => done
  | _, done => done
  | _, failed fault => failed fault
  | count + 1, item value rest =>
    item value fun _ => if count = 0 then done else (rest ()).take count

def drop : Nat → Feed ε α → Feed ε α
  | 0, feed => feed
  | _, done => done
  | _, failed fault => failed fault
  | count + 1, item _ rest => (rest ()).drop count

/-- The items, or those of another feed where there are none. -/
def orElse : Feed ε α → (Unit → Feed ε α) → Feed ε α
  | done, other => other ()
  | feed, _ => feed

/-- The items that are not the same as one before, by a key of each. -/
def distinctAfter (seen : List κ) (same : κ → κ → Bool) (key : α → Except ε κ) :
    Feed ε α → Feed ε α
  | done => done
  | failed fault => failed fault
  | item value rest =>
    match key value with
    | .error fault => failed fault
    | .ok found =>
      if seen.any (same found) then (rest ()).distinctAfter seen same key
      else item value fun _ => (rest ()).distinctAfter (found :: seen) same key

/-- The feed with its fault told in other terms. -/
def mapError (change : ε → ζ) : Feed ε α → Feed ζ α
  | done => done
  | failed fault => failed (change fault)
  | item value rest => item value fun _ => (rest ()).mapError change

/-- The items behind those that were taken. -/
def toArrayAfter (taken : Array α) : Feed ε α → Except ε (Array α)
  | done => .ok taken
  | failed fault => .error fault
  | item value rest => (rest ()).toArrayAfter (taken.push value)

def toList (feed : Feed ε α) : Except ε (List α) := (feed.toArrayAfter #[]).map Array.toList

def head? : Feed ε α → Except ε (Option α)
  | done => .ok none
  | failed fault => .error fault
  | item value _ => .ok (some value)

end Feed

end ImageAudit
