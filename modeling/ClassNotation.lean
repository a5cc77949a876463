import ClassNotation.Main
import ClassNotation.Trace
import ClassNotation.Proofs.Layout
import ClassNotation.Proofs.Machine.OpenClass
import ClassNotation.Proofs.Machine.Table
import ClassNotation.Proofs.TopLevelParts
import ClassNotation.Proofs.Line.PropertyGrammar
import ClassNotation.Proofs.Line.MethodGrammar
import ClassNotation.Proofs.TypeBalance
import ClassNotation.Proofs.Written
import ClassNotation.Proofs.Joining
import ClassNotation.Proofs.FaultPhases
import ClassNotation.Proofs.Command.Agreement
import ClassNotation.Proofs.Json.Document
import ClassNotation.Proofs.Java.Head
import ClassNotation.Proofs.Java.Inheritance
import ClassNotation.Proofs.References
import ClassNotation.Proofs.Java.Merging
import ClassNotation.Proofs.Trace.Conversion
import ClassNotation.Proofs.Files.Paths
import ClassNotation.Proofs.Files.Tree
import ClassNotation.Proofs.Files.Directories
import ClassNotation.Proofs.Files.Writing
import ClassNotation.Proofs.Json.Reading
import ClassNotation.Proofs.Java.TypeName
import ClassNotation.Proofs.Line.ParameterGrammar
import ClassNotation.Proofs.Java.SourceLines
import ClassNotation.Proofs.Java.SourceShape
import ClassNotation.Proofs.Java.Listing
import ClassNotation.Proofs.RelationSplitting
import ClassNotation.Proofs.Line.RelationNames
import ClassNotation.Proofs.Files.Packages
import ClassNotation.Proofs.Summary
