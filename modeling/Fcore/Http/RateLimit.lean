import Fcore.Http.Reply
import Fcore.Lib.SlidingWindow
import Fcore.Memory.Connection

/-!
# Rate limits

The limiter of the share endpoints counts by client address, the one of the reports by
subscription. They count alike: a limiter keeps the instants of the recent requests of each
key and refuses a request once the window holds `limit` of them, and a refused request is not
recorded. So both are the limiter of the sliding window with a key of their own, and its law
holds for both.
-/

namespace Fcore

abbrev RateLimiter := WindowLimiter IpAddr

namespace RateLimiter

def new (limit : ℕ) (window : ℤ) : RateLimiter := WindowLimiter.new limit window

def check (limiter : RateLimiter) (ip : IpAddr) (now : ℤ) : Bool × RateLimiter :=
  WindowLimiter.check limiter ip now

end RateLimiter

abbrev SubRateLimiter := WindowLimiter Uuid

namespace SubRateLimiter

def new (limit : ℕ) (window : ℤ) : SubRateLimiter := WindowLimiter.new limit window

def check (limiter : SubRateLimiter) (key : Uuid) (now : ℤ) : Bool × SubRateLimiter :=
  WindowLimiter.check limiter key now

end SubRateLimiter

/-- Of either limiter, in every run of checks in order of time: instants that lie in some
half-open interval of the length of the window have at most `limit` accepted checks of a key,
and a check is rejected only if exactly `limit` of its key were accepted in the window that
ends with it. -/
theorem checks_within_window (limit : ℕ) (window : ℤ) :
    (∀ es : List (IpAddr × ℤ), (es.map Prod.snd).Pairwise (· ≤ ·) →
      WindowLimiter.Limits limit window ((RateLimiter.new limit window).run es)) ∧
    ∀ es : List (Uuid × ℤ), (es.map Prod.snd).Pairwise (· ≤ ·) →
      WindowLimiter.Limits limit window ((SubRateLimiter.new limit window).run es) := by
  exact ⟨fun _ => WindowLimiter.limits_run limit window,
    fun _ => WindowLimiter.limits_run limit window⟩

/-- A check in the window of the first is rejected, and one that is a window later is not. -/
theorem checks_within_window_burst :
    ((SubRateLimiter.new 1 10).run [(7, 0), (7, 9), (7, 10)]).map Prod.snd = [true, false, true] ∧
      WindowLimiter.Limits 1 10 ((SubRateLimiter.new 1 10).run [(7, 0), (7, 9), (7, 10)]) :=
  ⟨by decide, (checks_within_window 1 10).2 _ (by decide)⟩

end Fcore
