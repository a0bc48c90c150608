import Pinfall.Game.Move
import Pinfall.Json.Reader
import Pinfall.Main
import Pinfall.Proofs.CommandLine.Agreement
import Pinfall.Proofs.CommandLine.Configuration
import Pinfall.Proofs.CommandLine.Document
import Pinfall.Proofs.CommandLine.Handover
import Pinfall.Proofs.CommandLine.Lines
import Pinfall.Proofs.CommandLine.Problem
import Pinfall.Proofs.Frame.Attempts
import Pinfall.Proofs.Frame.Marks
import Pinfall.Proofs.Game.Chronicle
import Pinfall.Proofs.Game.Display
import Pinfall.Proofs.Game.Ending
import Pinfall.Proofs.Game.InPlace
import Pinfall.Proofs.Game.Order
import Pinfall.Proofs.Game.OutOfTurn
import Pinfall.Proofs.Game.Sheet
import Pinfall.Proofs.Game.Slashes
import Pinfall.Proofs.Game.Spelling
import Pinfall.Proofs.Log.Setting
import Pinfall.Proofs.Pins.Denotation
import Pinfall.Proofs.Reporting.SampleRate
import Pinfall.Proofs.Schema.Settling
import Pinfall.Proofs.Scoring.Gain
import Pinfall.Proofs.Scoring.LookAhead
import Pinfall.Proofs.Users.Desk
import Pinfall.Proofs.Users.Identifiers
