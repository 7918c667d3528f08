import GfxDrm.Agp.Agpmaster
import GfxDrm.Agp.Open
import GfxDrm.Agp.Table
import GfxDrm.Auth.Runs
import GfxDrm.Bios.Reads
import GfxDrm.Bufs.Runs
import GfxDrm.CrtcHelper.Runs
import GfxDrm.Display.PageOffset
import GfxDrm.Display.Watermark
import GfxDrm.Dp.AuxChannel
import GfxDrm.Dp.LinkTraining
import GfxDrm.Dpll.Runs
import GfxDrm.Dpll.VlvFind
import GfxDrm.Dpll.Wrpll
import GfxDrm.DrmMm.Fit
import GfxDrm.DrmMm.Progress
import GfxDrm.DrmMm.Replace
import GfxDrm.Edid.CeaReads
import GfxDrm.Edid.Order
import GfxDrm.Edid.StdExact
import GfxDrm.FbHelper.Runs
import GfxDrm.FbHelper.SetupCrtcs
import GfxDrm.Fence.GttSize
import GfxDrm.Fence.SetTiling
import GfxDrm.Flip.Runs
import GfxDrm.Framebuffer.Sprite
import GfxDrm.Framebuffer.Settled
import GfxDrm.Gem.IdrTable
import GfxDrm.Gem.Runs
import GfxDrm.GemMap.Runs
import GfxDrm.Gtt.PinsAgree
import GfxDrm.Gtt.Scratch
import GfxDrm.Gtt.Setup
import GfxDrm.Hotplug.Runs
import GfxDrm.HwContext.Runs
import GfxDrm.I2c.GmbusTransfer
import GfxDrm.I915.PinsRestored
import GfxDrm.I915.RelocsAgree
import GfxDrm.I915.SlowArrays
import GfxDrm.I915.Tracked
import GfxDrm.Idr.Failures
import GfxDrm.Lock.Returns
import GfxDrm.Maps.Runs
import GfxDrm.Master.Runs
import GfxDrm.Modes.Sort
import GfxDrm.Overlay.PutImage
import GfxDrm.Overlay.Runs
import GfxDrm.Phys.Runs
import GfxDrm.Ppgtt.Ranges
import GfxDrm.Probe.EdidValid
import GfxDrm.Reset.Charges
import GfxDrm.RingBuffer.Runs
import GfxDrm.Rps
import GfxDrm.Shmem.Transfer
import GfxDrm.Timer.Runs
import GfxDrm.Vblank.Delivered
import GfxDrm.Vblank.Enabled
import GfxDrm.Display.FdiBudget
import GfxDrm.Vblank.FrameCounter
import GfxDrm.LinuxList
import GfxDrm.RingBuffer.Commands
import GfxDrm.RingBuffer.Semaphores
import GfxDrm.Idr.Contexts
