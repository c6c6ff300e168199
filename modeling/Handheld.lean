import Handheld.Board.Logged
import Handheld.Board.Scripted
import Handheld.Main
import Handheld.Proofs.Acceptance
import Handheld.Proofs.Accounts
import Handheld.Proofs.Arrivals
import Handheld.Proofs.Bursts
import Handheld.Proofs.Delivery
import Handheld.Proofs.Ending
import Handheld.Proofs.Frames
import Handheld.Proofs.Handover
import Handheld.Proofs.Holding
import Handheld.Proofs.Layers
import Handheld.Proofs.Pacing
import Handheld.Proofs.Painting
import Handheld.Proofs.Periods
import Handheld.Proofs.Pictures
import Handheld.Proofs.Ramps
import Handheld.Proofs.Retry
import Handheld.Proofs.Rounding
import Handheld.Proofs.Rounds
import Handheld.Proofs.Signals
import Handheld.Proofs.Stalls
import Handheld.Proofs.Walk
import Handheld.Proofs.Idling
import Handheld.Proofs.Dots
import Handheld.Proofs.Polls
import Handheld.Proofs.Repair
