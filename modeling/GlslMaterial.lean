import GlslMaterial.CommandLine.Disk
import GlslMaterial.Main
import GlslMaterial.Proofs.Descriptor.RoundTrip
import GlslMaterial.Proofs.Emission.Octaves
import GlslMaterial.Proofs.Emission.Typing
import GlslMaterial.Proofs.Generation.Isolation
import GlslMaterial.Proofs.Generation.Repeated
import GlslMaterial.Proofs.Generation.Sampling
import GlslMaterial.Proofs.Generation.Slots
import GlslMaterial.Proofs.Geometry.Sharing
import GlslMaterial.Proofs.Glsl.Enclosure
import GlslMaterial.Proofs.Glsl.Integers
import GlslMaterial.Proofs.Interface.Layout
import GlslMaterial.Proofs.Lookup.Scope
import GlslMaterial.Proofs.Shader.Conversion
import GlslMaterial.Proofs.Shader.CrossFade
import GlslMaterial.Proofs.Snippet.Finished
import GlslMaterial.Proofs.Source.Numbered
import GlslMaterial.Proofs.Text.Wildcard
