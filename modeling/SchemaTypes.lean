import SchemaTypes.Main
import SchemaTypes.Decode.JsonSource
import SchemaTypes.Schema.Encode
import SchemaTypes.Workspace.Folder
import SchemaTypes.Proofs.Graph.Parsed
import SchemaTypes.Proofs.Session.Calls
import SchemaTypes.Proofs.TypeScript.References
import SchemaTypes.Proofs.Graph.Ranges
import SchemaTypes.Proofs.Graph.Alternatives
import SchemaTypes.Proofs.Graph.Failure
import SchemaTypes.Proofs.Graph.Wrapping
import SchemaTypes.Proofs.Session.Wrappers
import SchemaTypes.Proofs.Session.Hierarchies
import SchemaTypes.Proofs.Session.Guards
import SchemaTypes.Proofs.TypeScript.Termination
import SchemaTypes.Proofs.Graph.Expansion
import SchemaTypes.Proofs.Graph.Following
import SchemaTypes.Proofs.Session.Repetition
import SchemaTypes.Proofs.Session.Effects
import SchemaTypes.Proofs.Session.Lockstep
import SchemaTypes.Proofs.TypeScript.Lockstep
import SchemaTypes.Proofs.TypeScript.NamingPolicies
import SchemaTypes.Proofs.Session.Changes
import SchemaTypes.Proofs.Session.Carriers
import SchemaTypes.Proofs.TypeScript.Replay
import SchemaTypes.Proofs.Session.Steady
import SchemaTypes.Proofs.TypeScript.Restoration
import SchemaTypes.Proofs.Session.Labels
import SchemaTypes.Proofs.TypeScript.Literals
import SchemaTypes.Proofs.TypeScript.Definitions
import SchemaTypes.Proofs.TypeScript.Compositions
import SchemaTypes.Proofs.TypeScript.Preparations
import SchemaTypes.Proofs.TypeScript.Stability
import SchemaTypes.Proofs.TypeScript.DefinitionNames
import SchemaTypes.Proofs.TypeScript.WrapperNames
import SchemaTypes.Proofs.TypeScript.Ranges
import SchemaTypes.Proofs.TypeScript.Outlines
import SchemaTypes.Proofs.TypeScript.Annotations
import SchemaTypes.Proofs.Schema.RoundTrip
import SchemaTypes.Proofs.TypeScript.InlineUnions
import SchemaTypes.Proofs.Graph.Extraction
import SchemaTypes.Proofs.TypeScript.DefaultNames
import SchemaTypes.Proofs.TypeScript.ValueTypes
import SchemaTypes.Proofs.TypeScript.Interfaces
import SchemaTypes.Proofs.Graph.ImplicitMapping
import SchemaTypes.Proofs.TypeScript.Members
import SchemaTypes.Proofs.TypeScript.Parents
import SchemaTypes.Proofs.Graph.Chains
import SchemaTypes.Proofs.Graph.Reservations
