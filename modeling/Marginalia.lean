import Marginalia.Main
import Marginalia.Proofs.Code
import Marginalia.Proofs.RemovalOrder
import Marginalia.Proofs.Reading
import Marginalia.Proofs.RoundTrip
import Marginalia.Proofs.Files
import Marginalia.Proofs.FileTagging
import Marginalia.Proofs.PatternRemoval
import Marginalia.Proofs.Closing
import Marginalia.Proofs.Appending
import Marginalia.Proofs.Tracking
import Marginalia.Proofs.History
import Marginalia.Proofs.Rejoining
import Marginalia.Proofs.Effects
import Marginalia.Proofs.Lexing
import Marginalia.Proofs.Widening
import Marginalia.Proofs.Arguments
import Marginalia.Proofs.Insertion
import Marginalia.Proofs.DryRun
import Marginalia.Proofs.Settling
import Marginalia.Proofs.Spans
import Marginalia.Proofs.Bracketing
import Marginalia.Proofs.Alignment
import Marginalia.Proofs.Reports
import Marginalia.Proofs.Bounds
import Marginalia.Proofs.EscapedPatterns
import Marginalia.Proofs.FileNames
import Marginalia.Proofs.TemporaryFiles
import Marginalia.Proofs.SettingsFiles
