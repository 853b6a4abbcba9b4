import Blockwright.Appearance.Material
import Blockwright.Appearance.Profile
import Blockwright.Archive
import Blockwright.Assets.Dependencies
import Blockwright.Assets.Mapping
import Blockwright.Assets.Source
import Blockwright.Assets.VanillaModel
import Blockwright.Bisection
import Blockwright.Build
import Blockwright.Bytes
import Blockwright.CommandLine.Invocation
import Blockwright.CommandLine.Run
import Blockwright.CommandLine.Words
import Blockwright.Data.Loot
import Blockwright.Data.Recipe
import Blockwright.Data.Tag
import Blockwright.Decimal.Shortest
import Blockwright.Digest.Checksum
import Blockwright.Digest.Fnv
import Blockwright.Digest.Sha256
import Blockwright.Disk.Basic
import Blockwright.Flate.Bits
import Blockwright.Flate.Block
import Blockwright.Flate.Huffman
import Blockwright.Flate.Inflate
import Blockwright.Flate.Zlib
import Blockwright.Gate.Check
import Blockwright.Gate.Failure
import Blockwright.Gate.Settings
import Blockwright.Image.Basic
import Blockwright.Image.Color
import Blockwright.Image.Fingerprint
import Blockwright.Image.Hsv
import Blockwright.Image.Recolor
import Blockwright.Image.Strict
import Blockwright.Image.Synthesis
import Blockwright.Image.Vary
import Blockwright.Json.Document
import Blockwright.Json.Printer
import Blockwright.Json.Record
import Blockwright.Json.Token
import Blockwright.Json.Value
import Blockwright.Main
import Blockwright.Plan
import Blockwright.Png.Basic
import Blockwright.Png.Chunk
import Blockwright.Png.Decode
import Blockwright.Png.Encode
import Blockwright.Png.Filter
import Blockwright.Png.Pixels
import Blockwright.Png.Validation
import Blockwright.Proofs.Appearance.Profile
import Blockwright.Proofs.Archive.Opening
import Blockwright.Proofs.Archive.Packing
import Blockwright.Proofs.Ascending
import Blockwright.Proofs.Assets.Appearance
import Blockwright.Proofs.Assets.Dependencies
import Blockwright.Proofs.Assets.Files
import Blockwright.Proofs.Assets.Influence
import Blockwright.Proofs.Assets.Lineage
import Blockwright.Proofs.Assets.Naming
import Blockwright.Proofs.Assets.References
import Blockwright.Proofs.Assets.Union
import Blockwright.Proofs.Assets.Variables
import Blockwright.Proofs.Build.Distinct
import Blockwright.Proofs.Build.Doors
import Blockwright.Proofs.Build.Finished
import Blockwright.Proofs.Build.Silhouettes
import Blockwright.Proofs.Build.Written
import Blockwright.Proofs.Data.Folders
import Blockwright.Proofs.Data.Forms
import Blockwright.Proofs.Data.References
import Blockwright.Proofs.Data.Results
import Blockwright.Proofs.Decimal.Rounding
import Blockwright.Proofs.Decimal.Shortest
import Blockwright.Proofs.Digest.Checksum
import Blockwright.Proofs.Disk.Resolving
import Blockwright.Proofs.Disk.Storing
import Blockwright.Proofs.Flate.Expansion
import Blockwright.Proofs.Flate.Stored
import Blockwright.Proofs.Gate.Checks
import Blockwright.Proofs.Gate.Decision
import Blockwright.Proofs.Gate.Opened
import Blockwright.Proofs.Image.Cells
import Blockwright.Proofs.Image.Frames
import Blockwright.Proofs.Image.Positions
import Blockwright.Proofs.Image.Related
import Blockwright.Proofs.Image.Sides
import Blockwright.Proofs.Image.Strict
import Blockwright.Proofs.Image.Synthesis
import Blockwright.Proofs.Image.Vary
import Blockwright.Proofs.Json.Canonical
import Blockwright.Proofs.Json.Doubles
import Blockwright.Proofs.Json.Members
import Blockwright.Proofs.Json.Numbers
import Blockwright.Proofs.Json.Parts
import Blockwright.Proofs.Json.Reordering
import Blockwright.Proofs.Json.RoundTrip
import Blockwright.Proofs.Json.Scaling
import Blockwright.Proofs.Json.Size
import Blockwright.Proofs.Json.Texts
import Blockwright.Proofs.Json.Tidy
import Blockwright.Proofs.Outcome
import Blockwright.Proofs.Plan.Paths
import Blockwright.Proofs.Plan.Placeholders
import Blockwright.Proofs.Plan.Reordering
import Blockwright.Proofs.Png.Corruption
import Blockwright.Proofs.Png.Decoded
import Blockwright.Proofs.Png.Filters
import Blockwright.Proofs.Png.Layout
import Blockwright.Proofs.Png.Normalizing
import Blockwright.Proofs.Png.Pixels
import Blockwright.Proofs.Png.RoundTrip
import Blockwright.Proofs.Png.Samples
import Blockwright.Proofs.Png.Sizes
import Blockwright.Proofs.Png.Truncation
import Blockwright.Proofs.Png.Validation
import Blockwright.Proofs.Png.Written
import Blockwright.Proofs.Rendering.Counters
import Blockwright.Proofs.Rendering.Counting
import Blockwright.Proofs.Rendering.History
import Blockwright.Proofs.Rendering.Influence
import Blockwright.Proofs.Rendering.Memory
import Blockwright.Proofs.Rendering.Rendered
import Blockwright.Proofs.Rendering.Repetition
import Blockwright.Proofs.Rendering.Success
import Blockwright.Proofs.Rules.Matches
import Blockwright.Proofs.Shape.Endings
import Blockwright.Proofs.Spec.Expansion
import Blockwright.Proofs.Spec.Members
import Blockwright.Proofs.Spec.References
import Blockwright.Proofs.Spec.Slug
import Blockwright.Proofs.Spec.Titles
import Blockwright.Proofs.Spec.WellFormed
import Blockwright.Proofs.Spec.Woods
import Blockwright.Proofs.Text.ByteOrder
import Blockwright.Proofs.Text.Pieces
import Blockwright.Proofs.Text.Replacing
import Blockwright.Proofs.Text.Runs
import Blockwright.Proofs.Theme.Acceptance
import Blockwright.Proofs.Theme.History
import Blockwright.Proofs.Theme.Pixels
import Blockwright.Proofs.Theme.Repetition
import Blockwright.Proofs.Theme.Search
import Blockwright.Proofs.Tree.Confinement
import Blockwright.Proofs.Tree.Layout
import Blockwright.Proofs.Tree.Listing
import Blockwright.Proofs.Tree.Location
import Blockwright.Proofs.Tree.Writing
import Blockwright.Proofs.Zip.RoundTrip
import Blockwright.Rendering.Origin
import Blockwright.Rendering.Run
import Blockwright.Rendering.Texture
import Blockwright.Rules
import Blockwright.Settings
import Blockwright.Shape.Basic
import Blockwright.Shape.BlockState
import Blockwright.Shape.Model
import Blockwright.Single
import Blockwright.Spec.Catalog
import Blockwright.Spec.Expansion
import Blockwright.Spec.Json
import Blockwright.Spec.Reading
import Blockwright.Spec.Slug
import Blockwright.Spec.Specification
import Blockwright.Spec.Wood
import Blockwright.Text.Ascending
import Blockwright.Text.Base64
import Blockwright.Text.Encoding
import Blockwright.Text.Mark
import Blockwright.Text.Number
import Blockwright.Text.Visible
import Blockwright.Text.Words
import Blockwright.Theme.Gallery
import Blockwright.Theme.Hue
import Blockwright.Tree.Component
import Blockwright.Tree.File
import Blockwright.Tree.Json
import Blockwright.Tree.Location
import Blockwright.Tree.Path
import Blockwright.Tree.Reading
import Blockwright.Tree.Write
import Blockwright.Version
import Blockwright.Zip.Basic
import Blockwright.Zip.Directory
import Blockwright.Zip.Encode
import Blockwright.Zip.Member
