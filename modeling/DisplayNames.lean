import DisplayNames.CommandLine.FileTree
import DisplayNames.Main
import DisplayNames.Proofs.Composition
import DisplayNames.Proofs.MethodOn
import DisplayNames.Proofs.CallSequence
import DisplayNames.Proofs.GraphInvariant
import DisplayNames.Proofs.GraphExtension
import DisplayNames.Proofs.SceneExtension
import DisplayNames.Proofs.NamesExtension
import DisplayNames.Proofs.AddedDeclarations
import DisplayNames.Proofs.ReorderedWalk
import DisplayNames.Proofs.ExplicitIds
import DisplayNames.Proofs.InputFiles
import DisplayNames.Proofs.IdentityInstantiation
import DisplayNames.Proofs.Termination
import DisplayNames.Proofs.SessionCalls
import DisplayNames.Proofs.Catalogs
import DisplayNames.Proofs.PlainReplacement
import DisplayNames.Proofs.BrokenReferences
import DisplayNames.Proofs.SubstitutedSignatures
import DisplayNames.Proofs.Configurations
import DisplayNames.Proofs.SlotContexts
import DisplayNames.Proofs.RelevantEntries
import DisplayNames.Proofs.QualifiedNames
import DisplayNames.Proofs.SuffixNotation
import DisplayNames.Proofs.DeclaredPaths
import DisplayNames.Proofs.LawfulTypes
import DisplayNames.Proofs.ArgumentLists
import DisplayNames.Proofs.LexicalScope
import DisplayNames.Proofs.TypeLanguage
