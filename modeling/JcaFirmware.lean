import JcaFirmware.Foundation.Run
import JcaFirmware.Foundation.Ring
import JcaFirmware.Foundation.Linked
import JcaFirmware.Cms
import JcaFirmware.EventQueue
import JcaFirmware.EventMemory
import JcaFirmware.EventLog
import JcaFirmware.TracerBuffer
import JcaFirmware.Update
import JcaFirmware.EventPending
import JcaFirmware.Alarm
import JcaFirmware.Section
import JcaFirmware.System
import JcaFirmware.Foundation.Bisection
import JcaFirmware.TracerRecovery
import JcaFirmware.TracerUpload
import JcaFirmware.TracerUndelivered
import JcaFirmware.Foundation.Numeral
import JcaFirmware.TracerH02
import JcaFirmware.Tracer
import JcaFirmware.TracerComm
import JcaFirmware.TracerTrack
import JcaFirmware.CmsSia
import JcaFirmware.CmsStep
import JcaFirmware.CmsRun
import JcaFirmware.CmsTrace
import JcaFirmware.Sms
import JcaFirmware.SmsText
import JcaFirmware.SmsDispatch
import JcaFirmware.Cmd
import JcaFirmware.Reinit
import JcaFirmware.Password
import JcaFirmware.Ble
import JcaFirmware.BleTx
import JcaFirmware.MultiSms
import JcaFirmware.Nmea
import JcaFirmware.Foundation.Memory
import JcaFirmware.Foundation.Region
import JcaFirmware.Cfg
import JcaFirmware.CfgCmd
import JcaFirmware.Foundation.IntelHex
import JcaFirmware.Ihex
import JcaFirmware.IhexRoundTrip
import JcaFirmware.AppCrc
import JcaFirmware.AppContainer
import JcaFirmware.Bootloader
import JcaFirmware.Toolchain
import JcaFirmware.BootloaderReads
import JcaFirmware.StorageRegions
import JcaFirmware.SizeLimits
import JcaFirmware.Dns
import JcaFirmware.Modem
import JcaFirmware.ModemData
import JcaFirmware.UdpSockets
import JcaFirmware.Disarm
import JcaFirmware.EventBufPrio
import JcaFirmware.Power
import JcaFirmware.Siren
import JcaFirmware.IhexForm
import JcaFirmware.CmsSiaGrammar
import JcaFirmware.MultiSmsLength
import JcaFirmware.CmsSiaReply
import JcaFirmware.NetTarget
import JcaFirmware.Gps
import JcaFirmware.GpsStamp
import JcaFirmware.SectionDelay
import JcaFirmware.InpTask
import JcaFirmware.TracerSchedule
import JcaFirmware.TracerParam
import JcaFirmware.TracerSave
import JcaFirmware.SmsSplit
import JcaFirmware.SmsUtf8
import JcaFirmware.ModemRx
import JcaFirmware.TracerPause
import JcaFirmware.EventTime
import JcaFirmware.NmeaField
import JcaFirmware.Foundation.Cipher
import JcaFirmware.Aes
import JcaFirmware.Foundation.Elementwise
import JcaFirmware.AesRounds
import JcaFirmware.AesCbc
import JcaFirmware.EncryptedImage
import JcaFirmware.Foundation.Task
import JcaFirmware.ModemAt
import JcaFirmware.ModemStart
import JcaFirmware.ModemMain
import JcaFirmware.ModemKeeps
import JcaFirmware.ModemAnswers
import JcaFirmware.ModemSetup
import JcaFirmware.ModemPin
import JcaFirmware.ModemOrders
import JcaFirmware.ModemLife
import JcaFirmware.Boot
import JcaFirmware.Foundation.StopAndWait
import JcaFirmware.FlashPy
import JcaFirmware.UpdateImage
