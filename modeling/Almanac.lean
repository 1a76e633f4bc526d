import Almanac.Label
import Almanac.Session
import Almanac.Proofs.Cron.Acceptance
import Almanac.Proofs.Estimate.Firings
import Almanac.Proofs.Page.Refusals
import Almanac.Proofs.Cache.Recency
import Almanac.Proofs.Calendar.Partition
import Almanac.Proofs.Cron.Enumeration
import Almanac.Proofs.Cron.Bounds
import Almanac.Proofs.Estimate.WeekRuns
import Almanac.Proofs.Estimate.Weekdays
import Almanac.Proofs.Cron.DayUnion
import Almanac.Proofs.Calendar.Listing
import Almanac.Proofs.Calendar.DayArithmetic
import Almanac.Proofs.Calendar.Months
import Almanac.Proofs.Calendar.MonthGrid
import Almanac.Proofs.Estimate.Reversed
import Almanac.Proofs.Estimate.Failures
import Almanac.Proofs.Page.Failures
import Almanac.Proofs.Estimate.Unanchored
import Almanac.Proofs.Job.Advance
import Almanac.Proofs.Session.Configuration
import Almanac.Proofs.Estimate.Footprint
import Almanac.Proofs.Label.TimesOfDay
import Almanac.Proofs.Label.Frequencies
import Almanac.Proofs.Label.Rejections
import Almanac.Proofs.Job.References
import Almanac.Proofs.Cron.Leftmost
import Almanac.Proofs.Cron.Keys
import Almanac.Proofs.Page.DayTexts
