import BitcoinPriceTracker.Proofs.DashboardSession
import BitcoinPriceTracker.Proofs.FetchedPrices
import BitcoinPriceTracker.Proofs.ServedReads

namespace BitcoinPriceTracker

variable {P : Platform} {path : DbPath} {maxViewers : ℕ} {sessionId : String}

/-- The prices in an average, with their sources. -/
def PriceView.shown (view : PriceView) : List (String × ℚ) :=
  view.contributors.map fun aged => (aged.source.source, aged.source.priceUsd)

end BitcoinPriceTracker
