import CounterWatch.Main
import CounterWatch.Proofs.AlertLog
import CounterWatch.Proofs.AlertText
import CounterWatch.Proofs.BlindSpots
import CounterWatch.Proofs.ConfigText
import CounterWatch.Proofs.ConstantFeatures
import CounterWatch.Proofs.NodeList
import CounterWatch.Proofs.OutlierShare
import CounterWatch.Proofs.Rates
import CounterWatch.Proofs.Replacement
import CounterWatch.Proofs.Retraining
import CounterWatch.Proofs.RollingFeatures
import CounterWatch.Proofs.Spikes
import CounterWatch.Proofs.UndefinedRates
import CounterWatch.Proofs.Untrained
import CounterWatch.Proofs.CounterRates
import CounterWatch.Proofs.Interpolation
import CounterWatch.Proofs.Column
import CounterWatch.Proofs.InlierRegion
import CounterWatch.Proofs.StandardScale
import CounterWatch.Proofs.Uniformity
