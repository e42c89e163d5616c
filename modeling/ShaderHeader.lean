import ShaderHeader.Release
import ShaderHeader.Proofs.BlockSize
import ShaderHeader.Proofs.ConstantNames
import ShaderHeader.Proofs.DialectSubset
import ShaderHeader.Proofs.Dispatch
import ShaderHeader.Proofs.Embedding
import ShaderHeader.Proofs.PathWalk
import ShaderHeader.Proofs.Rejection
import ShaderHeader.Proofs.Reordering
import ShaderHeader.Proofs.SharedStructs
import ShaderHeader.Proofs.StructText
import ShaderHeader.Proofs.Restriction
import ShaderHeader.Proofs.Commit
import ShaderHeader.Proofs.Tiling
import ShaderHeader.Proofs.Identifiers
import ShaderHeader.Proofs.Registration
import ShaderHeader.Proofs.GuideDeclared
import ShaderHeader.Proofs.LayoutFaults
import ShaderHeader.Proofs.SlotWalk
import ShaderHeader.Proofs.DescriptorText
import ShaderHeader.Proofs.Additions
import ShaderHeader.Proofs.Linkage
import ShaderHeader.Proofs.ArrayText
import ShaderHeader.Proofs.CommentText
