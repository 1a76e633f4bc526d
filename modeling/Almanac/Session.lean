import Almanac.Page

/-!
# Sessions

A session answers requests one after the other over one cache, which starts empty and has the
capacity of the configuration.
-/

namespace Almanac

open Almanac.Cron

inductive Request where
  | day (job : Job) (point : TimePoint)
  | perDay (job : Job) (start stop : TimePoint)
  | total (job : Job) (start stop : TimePoint)
  | page (jobs : List Job) (anchor : TimePoint) (view : Value)
  | expression (text : Value)
  | clear

inductive Answer where
  | count (n : Count)
  | counts (counts : List DayCount)
  | page (page : Page)
  | expression (expression : Expression)
  | cleared
deriving DecidableEq

namespace Request

def answer (config : Config) : Request → Cached Answer
  | .day job point => Answer.count <$> Estimator.onDay config job point
  | .perDay job start stop => Answer.counts <$> Estimator.perDay config job start stop
  | .total job start stop => Answer.count <$> Estimator.total config job start stop
  | .page jobs anchor view => Answer.page <$> Page.build config jobs anchor view
  | .expression text => Answer.expression <$> Cached.expression text
  | .clear => (fun _ => Answer.cleared) <$> Cached.clear

end Request

namespace Session

def fresh (config : Config) : Cache := .empty config.capacity

/-- The outcome of a request. One that could not be formed fails with its error and changes
nothing. -/
def respond (config : Config) : Except Error Request → Cached Answer
  | .ok request => request.answer config
  | .error error => Cached.ofResult (.error error)

def outcomes (config : Config) : Cache → List (Except Error Request) → List (Outcome Answer)
  | _, [] => []
  | cache, request :: rest =>
      let outcome := respond config request cache
      outcome :: outcomes config outcome.cache rest

def after (config : Config) : Cache → List (Except Error Request) → Cache
  | cache, [] => cache
  | cache, request :: rest => after config (respond config request cache).cache rest

def alone (config : Config) (request : Request) : Outcome Answer :=
  request.answer config (fresh config)

end Session

end Almanac
