import Banknote.Main
import Banknote.Proofs.Config.Entries
import Banknote.Proofs.Config.Order
import Banknote.Proofs.Currency.Image
import Banknote.Proofs.Fuzzy.Edits
import Banknote.Proofs.Fuzzy.Rounds
import Banknote.Proofs.Fuzzy.Suggest
import Banknote.Proofs.Fuzzy.Training
import Banknote.Proofs.Recognition.Builtin
import Banknote.Proofs.Recognition.Codes
import Banknote.Proofs.Recognition.Evidence
import Banknote.Proofs.Recognition.Groups
import Banknote.Proofs.Recognition.Inlining
import Banknote.Proofs.Recognition.Isolation
import Banknote.Proofs.Recognition.Joined
import Banknote.Proofs.Recognition.References
import Banknote.Proofs.Recognition.Resubmission
import Banknote.Proofs.Recognition.Scrub
import Banknote.Proofs.Recognition.Segmentation
import Banknote.Proofs.Recognition.Written
import Banknote.Proofs.Reload
import Banknote.Proofs.Report
import Banknote.Proofs.Session
import Banknote.Recognition.Writer
