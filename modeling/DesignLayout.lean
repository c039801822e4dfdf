import DesignLayout.Main
import DesignLayout.Proofs.DistinctKeys
import DesignLayout.Proofs.Filing
import DesignLayout.Proofs.Toml.Keys
import DesignLayout.Proofs.Toml.Documents
import DesignLayout.Proofs.ConfigRoundTrip
import DesignLayout.Proofs.Json.Lexing
import DesignLayout.Proofs.TokenRecord
import DesignLayout.Proofs.CodeJoining
import DesignLayout.Proofs.MarkedText
import DesignLayout.Proofs.Registration
import DesignLayout.Proofs.TokenAgreement
import DesignLayout.Proofs.Scanning
import DesignLayout.Proofs.LiteralScanning
import DesignLayout.Proofs.SourceBalance
import DesignLayout.Proofs.Layering
import DesignLayout.Proofs.ScopeSafety
import DesignLayout.Proofs.Placement
import DesignLayout.Proofs.LayoutForm
import DesignLayout.Proofs.FullRendering
import DesignLayout.Proofs.DesignValues
import DesignLayout.Proofs.ValueTokens
import DesignLayout.Proofs.ConfigLoading
import DesignLayout.Proofs.NamedTables
import DesignLayout.Proofs.SavedEdits
import DesignLayout.Proofs.SettingsRecord
import DesignLayout.Proofs.PropertyRecord
import DesignLayout.Proofs.LayoutRecord
import DesignLayout.Proofs.SavedRuns
import DesignLayout.Proofs.SavedSettings
import DesignLayout.Proofs.FiniteDocuments
import DesignLayout.Proofs.KeptNodes
import DesignLayout.Proofs.PlacedValues
import DesignLayout.Proofs.RenderingFaults
import DesignLayout.Proofs.CodeLikeness
import DesignLayout.Proofs.RegistryIndependence
import DesignLayout.Proofs.ConfigInfluence
import DesignLayout.Proofs.TokenTraits
import DesignLayout.Proofs.TableRuns
import DesignLayout.Proofs.SceneLooks
import DesignLayout.Proofs.HiddenParts
import DesignLayout.Proofs.DanglingLinks
import DesignLayout.Proofs.LinkOrigins
import DesignLayout.Proofs.HostRuns
import DesignLayout.Proofs.RegistrationRuns
import DesignLayout.Proofs.MergedTables
import DesignLayout.Proofs.TableContent
import DesignLayout.Proofs.MarkedRenders
import DesignLayout.Proofs.Quantities
import DesignLayout.Proofs.ScopeReach
import DesignLayout.Proofs.CallArguments
import DesignLayout.Proofs.LinkNames
import DesignLayout.Proofs.Indentation
import DesignLayout.Proofs.Nesting
import DesignLayout.Proofs.StringLiterals
import DesignLayout.Proofs.CodeSpelling
import DesignLayout.Proofs.ConfigChecking
import DesignLayout.Proofs.MarkedReading
import DesignLayout.Proofs.TokenIds
