import ScriptToCpp.Files.Tree
import ScriptToCpp.Main
import ScriptToCpp.Proofs.Language
import ScriptToCpp.Proofs.Scope
import ScriptToCpp.Proofs.Moves
import ScriptToCpp.Proofs.Reading
import ScriptToCpp.Proofs.Soundness
import ScriptToCpp.Proofs.Spelling
import ScriptToCpp.Proofs.TokenList
import ScriptToCpp.Proofs.ScriptTree
import ScriptToCpp.Proofs.Parsing
import ScriptToCpp.Proofs.Simulation
import ScriptToCpp.Proofs.Unambiguity
import ScriptToCpp.Proofs.Recognition
import ScriptToCpp.Proofs.Halting
import ScriptToCpp.Proofs.Diagnosis
import ScriptToCpp.Proofs.Rendering
import ScriptToCpp.Proofs.LexicalGrammar
import ScriptToCpp.Proofs.Lexemes
import ScriptToCpp.Proofs.Lexing
import ScriptToCpp.Proofs.Names
import ScriptToCpp.Proofs.Generated
import ScriptToCpp.Proofs.Keywords
import ScriptToCpp.Proofs.BlockScope
import ScriptToCpp.Proofs.ScopeAgreement
import ScriptToCpp.Proofs.Initialisation
import ScriptToCpp.Proofs.Outcome
import ScriptToCpp.Proofs.Layout
import ScriptToCpp.Proofs.LexemeEnds
import ScriptToCpp.Proofs.Lines
import ScriptToCpp.Proofs.Concatenation
import ScriptToCpp.Proofs.Composition
import ScriptToCpp.Proofs.Rewording
import ScriptToCpp.Proofs.TextRenaming
import ScriptToCpp.Proofs.Renaming
import ScriptToCpp.Proofs.Quotation
import ScriptToCpp.Proofs.StringIsolation
import ScriptToCpp.Proofs.Places
import ScriptToCpp.Proofs.Sessions
import ScriptToCpp.Proofs.Paths
import ScriptToCpp.Proofs.FileTrees
import ScriptToCpp.Proofs.FileCompiling
import ScriptToCpp.Proofs.Observation
import ScriptToCpp.Proofs.DeclaredNames
import ScriptToCpp.Proofs.JsonRoundTrip
import ScriptToCpp.Proofs.JsonGrammar
import ScriptToCpp.Proofs.JsonDerivations
import ScriptToCpp.Proofs.SettingsDocuments
import ScriptToCpp.Proofs.Listings
import ScriptToCpp.Proofs.Scanner
import ScriptToCpp.Proofs.Directories
import ScriptToCpp.Proofs.SettingsStore
import ScriptToCpp.Proofs.Footprint
import ScriptToCpp.Proofs.HelpRequests
import ScriptToCpp.Proofs.Expressions
import ScriptToCpp.Proofs.CppTokens
import ScriptToCpp.Proofs.CppTrees
import ScriptToCpp.Proofs.Arithmetic
import ScriptToCpp.Proofs.TokenText
import ScriptToCpp.Proofs.LineEndings
import ScriptToCpp.Proofs.Appending
import ScriptToCpp.Proofs.Derivations
import ScriptToCpp.Proofs.Scanning
import ScriptToCpp.Proofs.Descent
import ScriptToCpp.Proofs.DescentRuns
import ScriptToCpp.Proofs.ParsingEnds
import ScriptToCpp.Proofs.Indentation
import ScriptToCpp.Proofs.OpenBlocks
