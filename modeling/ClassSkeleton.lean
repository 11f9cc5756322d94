import ClassSkeleton.Main
import ClassSkeleton.Window
import ClassSkeleton.Proofs.Declaration.Pieces
import ClassSkeleton.Proofs.Page.Header
import ClassSkeleton.Proofs.Page.Layout
import ClassSkeleton.Proofs.Stage.Balance
import ClassSkeleton.Proofs.Stage.Settling
import ClassSkeleton.Proofs.Page.Rejected
import ClassSkeleton.Proofs.Stage.Stored
import ClassSkeleton.Proofs.Stage.Refetch
import ClassSkeleton.Proofs.Stage.Rebuild
import ClassSkeleton.Proofs.Catalog.Offline
import ClassSkeleton.Proofs.Run.Repeat
import ClassSkeleton.Proofs.Catalog.Names
import ClassSkeleton.Proofs.Catalog.Recovery
import ClassSkeleton.Proofs.Skeleton.Comment
import ClassSkeleton.Proofs.Skeleton.Emission
import ClassSkeleton.Proofs.Page.Annotated
import ClassSkeleton.Proofs.Catalog.Regular
import ClassSkeleton.Proofs.Run.CachedOnly
import ClassSkeleton.Proofs.Skeleton.Identifier
import ClassSkeleton.Proofs.Page.References
import ClassSkeleton.Proofs.Stage.FileLayout
import ClassSkeleton.Proofs.Bytewise.Page
import ClassSkeleton.Proofs.Page.Shape
import ClassSkeleton.Proofs.Page.Required
import ClassSkeleton.Proofs.Stage.Rounds
import ClassSkeleton.Proofs.Stage.Surrender
import ClassSkeleton.Proofs.Declaration.SelfName
import ClassSkeleton.Proofs.Stage.Delivery
import ClassSkeleton.Proofs.Stage.Fetching
import ClassSkeleton.Proofs.Page.Generics
import ClassSkeleton.Proofs.Page.Interfaces
import ClassSkeleton.Proofs.Markup.Words
import ClassSkeleton.Proofs.Page.Blocks
import ClassSkeleton.Proofs.Markup.Moves
import ClassSkeleton.Proofs.Command.Groups
import ClassSkeleton.Proofs.Window.SharedBoard
import ClassSkeleton.Proofs.Declaration.Spelling
