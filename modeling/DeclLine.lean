import DeclLine.Main
import DeclLine.Proofs.Caret
import DeclLine.Proofs.Commit
import DeclLine.Proofs.Construction
import DeclLine.Proofs.EarliestFault
import DeclLine.Proofs.EndMarker
import DeclLine.Proofs.HashPolynomials
import DeclLine.Proofs.InsertionOrder
import DeclLine.Proofs.Listing
import DeclLine.Proofs.Rehash
import DeclLine.Proofs.Rounds
import DeclLine.Proofs.StackLimit
import DeclLine.Proofs.Tokens
import DeclLine.Proofs.Unambiguous
import DeclLine.Proofs.WriteProtection
