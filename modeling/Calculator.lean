import Calculator.Main
import Calculator.Proofs.ExactInteger
import Calculator.Proofs.Reading
import Calculator.Proofs.Relocation
import Calculator.Proofs.Joining
import Calculator.Proofs.Printing
import Calculator.Proofs.FaultOrigin
import Calculator.Proofs.Location
import Calculator.Proofs.Balance
import Calculator.Proofs.OuterPairs
import Calculator.Proofs.Replacement
import Calculator.Proofs.Wrapping
import Calculator.Proofs.Places
import Calculator.Proofs.RankCount
import Calculator.Proofs.Checked
import Calculator.Proofs.LogOutline
import Calculator.Proofs.PostOrder
import Calculator.Proofs.Choices
import Calculator.Proofs.IntegerPower
import Calculator.Proofs.Encoding
import Calculator.Proofs.OperatorUse
import Calculator.Proofs.Lines
import Calculator.Proofs.Session
import Calculator.Proofs.OneShot
import Calculator.Proofs.Derivation
import Calculator.Proofs.InsideGroups
import Calculator.Proofs.LocalFault
import Calculator.Proofs.Weakest
import Calculator.Proofs.SinglePass
import Calculator.Proofs.Numbers
import Calculator.Proofs.Words
import Calculator.Proofs.SelfDelimiting
import Calculator.Proofs.Messages
