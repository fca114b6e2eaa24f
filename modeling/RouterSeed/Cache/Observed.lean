/-
Asking a cache for its state while others use it.

The state is not stored anywhere: whoever asks takes a look at what is
served, then one at the claim, and answers from both. Others may do
anything before, between and after the two looks, and any number of users
may be asking at the same time. Without anybody in between, the answer is
`Cache.state`.
-/
import RouterSeed.Cache.Session

namespace RouterSeed

-- ========================================================== inquiries

/-- How far somebody is who asks for the state. -/
inductive Inquiry where
  | begun
  | looked (isServing : Bool)
  | answered (state : CacheState)
  deriving DecidableEq, Repr

/-- The next look at the cache. -/
def Inquiry.look (c : Cache) : Inquiry → Inquiry
  | .begun => .looked c.current.isSome
  | .looked isServing => .answered (.ofReads isServing c.rebuilding)
  | .answered state => .answered state

/-- Both looks at one cache. -/
theorem Inquiry.look_look_begun (c : Cache) : (begun.look c).look c = .answered c.state := rfl

-- ====================================================== observed caches

/-- A cache with its users, and all who have asked for its state, the
first one first. -/
structure ObservedCache where
  session : CacheSession
  inquiries : List Inquiry
  deriving DecidableEq, Repr

/-- What happens to a cache that is asked for its state. -/
inductive ObservedEvent where
  /-- A user does something with the cache. -/
  | use (operation : CacheOperation)
  /-- Somebody begins to ask. -/
  | ask
  /-- One of those who ask takes the next look. -/
  | look (index : Nat)
  deriving DecidableEq, Repr

namespace ObservedCache

/-- A cache that nobody has asked yet. -/
def unasked (session : CacheSession) : ObservedCache := ⟨session, []⟩

/-- The cache. -/
def cache (o : ObservedCache) : Cache := o.session.cache

/-- One event. Looks of those who have not asked change nothing. -/
def step (o : ObservedCache) : ObservedEvent → ObservedCache
  | .use operation => { o with session := (o.session.step operation).2 }
  | .ask => { o with inquiries := o.inquiries ++ [.begun] }
  | .look index => { o with inquiries := o.inquiries.modify index (Inquiry.look o.cache) }

/-- Events in order. -/
def run (o : ObservedCache) (events : List ObservedEvent) : ObservedCache := events.foldl step o

end ObservedCache

end RouterSeed
