import BitcoinPriceTracker.Proofs.StorableBatch
import BitcoinPriceTracker.Proofs.ViewerRegistry
import BitcoinPriceTracker.Proofs.TokenBucket
import BitcoinPriceTracker.Proofs.StoreInvariant
import BitcoinPriceTracker.Proofs.Migration
import BitcoinPriceTracker.Proofs.NoLostUpdate
import BitcoinPriceTracker.Proofs.LocalAgeing
import BitcoinPriceTracker.Proofs.Activation
import BitcoinPriceTracker.Proofs.CleanShutdown
import BitcoinPriceTracker.Proofs.NewsCache
import BitcoinPriceTracker.Proofs.Noninterference
import BitcoinPriceTracker.Proofs.StoreInverse
import BitcoinPriceTracker.Proofs.ChosenObservation
import BitcoinPriceTracker.Proofs.Rotation
import BitcoinPriceTracker.Proofs.PollingCadence
import BitcoinPriceTracker.Proofs.FeedPolling
import BitcoinPriceTracker.Proofs.BodyLimits
import BitcoinPriceTracker.Proofs.IncrementalMean
import BitcoinPriceTracker.Proofs.ConditionalRequests
import BitcoinPriceTracker.Proofs.Admission
import BitcoinPriceTracker.Proofs.RefreshNotices
import BitcoinPriceTracker.Proofs.Answers
import BitcoinPriceTracker.Proofs.PageMemory
import BitcoinPriceTracker.Proofs.Session
import BitcoinPriceTracker.Proofs.ShownPrices
import BitcoinPriceTracker.Proofs.Progress
import BitcoinPriceTracker.Proofs.FeedMemory
import BitcoinPriceTracker.Proofs.FeedSession
